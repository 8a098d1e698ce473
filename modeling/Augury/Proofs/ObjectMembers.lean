import Augury.Json.Basic
import Mathlib.Data.List.Forall2
import Mathlib.Data.List.Nodup

/-!
# The members of objects

An object that repeats no name is a finite map: asking for a name finds the one member that has it
(`member?_eq_some_iff`), and the order of the members carries nothing.  `Reordered` says that two values
differ in the order of members only, and `Json.keep` takes the members with other names out of an object.
What is kept of an object is another object up to order exactly when each member of the other one has its
match (`reordered_keep_iff`).
-/

set_option autoImplicit false

namespace Augury.Json

/-- The members of an object have different names. -/
def DistinctNames (members : List (String × Json)) : Prop :=
  (members.map Prod.fst).Nodup

/-- An object without the members whose names are not among the given ones. -/
def keep (names : List String) : Json → Json
  | .object members => .object (members.filter fun member => names.contains member.1)
  | value => value

mutual

/-- Two values are the same up to the order in which objects, at any depth, list their members. -/
inductive Reordered : Json → Json → Prop where
  | refl (value : Json) : Reordered value value
  | array {items others : List Json} (h : List.Forall₂ Reordered items others) :
      Reordered (.array items) (.array others)
  | object {members moved others : List (String × Json)} (hmoved : members.Perm moved)
      (h : ReorderedMembers moved others) : Reordered (.object members) (.object others)

/-- Two lists of members have the same names in the same order, and values that are the same up to the
order of members. -/
inductive ReorderedMembers : List (String × Json) → List (String × Json) → Prop where
  | nil : ReorderedMembers [] []
  | cons {name : String} {value other : Json} {members others : List (String × Json)}
      (hvalue : Reordered value other) (hrest : ReorderedMembers members others) :
      ReorderedMembers ((name, value) :: members) ((name, other) :: others)

end

/-! ## Values without an order -/

/-- A value is the same as another one up to order only if it is that value. -/
def Rigid (value : Json) : Prop :=
  ∀ other, Reordered other value → other = value

theorem Rigid.reordered_iff {value other : Json} (h : Rigid value) :
    Reordered other value ↔ other = value := by
  constructor
  · exact h other
  · rintro rfl
    exact .refl _

theorem rigid_null : Rigid .null := by
  intro other h
  cases h
  rfl

theorem rigid_number (number : Number) : Rigid (.number number) := by
  intro other h
  cases h
  rfl

theorem rigid_string (text : String) : Rigid (.string text) := by
  intro other h
  cases h
  rfl

theorem rigid_array {items : List Json} (h : ∀ item ∈ items, Rigid item) : Rigid (.array items) := by
  intro other hother
  cases hother with
  | refl => rfl
  | @array others items hitems =>
    congr 1
    induction hitems with
    | nil => rfl
    | cons hitem hrest ih =>
      obtain ⟨hfirst, hothers⟩ := List.forall_mem_cons.mp h
      rw [hfirst _ hitem, ih hothers]

/-! ## Asking for a member -/

section Members

variable {members others : List (String × Json)} {name : String} {value : Json}

theorem DistinctNames.eq_of_mem (h : DistinctNames members) {other : Json}
    (hvalue : (name, value) ∈ members) (hother : (name, other) ∈ members) : value = other :=
  congrArg Prod.snd (List.inj_on_of_nodup_map h hvalue hother rfl)

theorem mem_of_member?_eq_some (h : (object members).member? name = some value) :
    (name, value) ∈ members := by
  obtain ⟨before, behind, hmembers, -⟩ := List.lookup_eq_some_iff.mp h
  rw [← List.mem_reverse, hmembers]
  simp

theorem member?_eq_none_iff :
    (object members).member? name = none ↔ name ∉ members.map Prod.fst := by
  simp only [member?, List.lookup_eq_none_iff, List.mem_reverse, bne_iff_ne, List.mem_map]
  constructor
  · rintro h ⟨member, hmem, rfl⟩
    exact h member hmem rfl
  · rintro h member hmem rfl
    exact h ⟨member, hmem, rfl⟩

/-- Where no name is repeated, the members are the answers to asking for their names. -/
theorem member?_eq_some_iff (h : DistinctNames members) :
    (object members).member? name = some value ↔ (name, value) ∈ members := by
  refine ⟨mem_of_member?_eq_some, ?_⟩
  intro hmem
  cases hmember : (object members).member? name with
  | none => exact absurd (List.mem_map_of_mem hmem) (member?_eq_none_iff.mp hmember)
  | some other => rw [h.eq_of_mem (mem_of_member?_eq_some hmember) hmem]

/-! ## Objects up to the order of their members -/

theorem ReorderedMembers.map_fst_eq (h : ReorderedMembers members others) :
    members.map Prod.fst = others.map Prod.fst := by
  induction members generalizing others with
  | nil =>
    cases h
    rfl
  | cons member members ih =>
    cases h with
    | cons _ hrest => rw [List.map_cons, List.map_cons, ih hrest]

theorem ReorderedMembers.exists_mem (h : ReorderedMembers members others) {member : String × Json}
    (hmember : member ∈ others) : ∃ value, (member.1, value) ∈ members ∧ Reordered value member.2 := by
  induction others generalizing members with
  | nil => cases hmember
  | cons first others ih =>
    cases h with
    | @cons name value other members _ hvalue hrest =>
      rcases List.mem_cons.mp hmember with rfl | hmember
      · exact ⟨value, List.mem_cons_self, hvalue⟩
      · obtain ⟨found, hfound, hreordered⟩ := ih hrest hmember
        exact ⟨found, List.mem_cons_of_mem _ hfound, hreordered⟩

theorem Reordered.exists_mem (h : Reordered (.object members) (.object others))
    {member : String × Json} (hmember : member ∈ others) :
    ∃ value, (member.1, value) ∈ members ∧ Reordered value member.2 := by
  cases h with
  | refl => exact ⟨member.2, hmember, .refl _⟩
  | object hmoved hmembers =>
    obtain ⟨value, hvalue, hreordered⟩ := hmembers.exists_mem hmember
    exact ⟨value, hmoved.mem_iff.mpr hvalue, hreordered⟩

/-- The matches of the members of an object, in the order of these members. -/
theorem exists_reorderedMembers
    (h : ∀ member ∈ others, ∃ value, (member.1, value) ∈ members ∧ Reordered value member.2) :
    ∃ moved, moved ⊆ members ∧ ReorderedMembers moved others := by
  induction others with
  | nil => exact ⟨[], List.nil_subset _, .nil⟩
  | cons first others ih =>
    obtain ⟨⟨value, hvalue, hreordered⟩, hothers⟩ := List.forall_mem_cons.mp h
    obtain ⟨moved, hsubset, hmoved⟩ := ih hothers
    exact ⟨(first.1, value) :: moved, List.cons_subset.mpr ⟨hvalue, hsubset⟩,
      .cons hreordered hmoved⟩

/-- What is kept of an object by the names of another one is the other one up to order exactly when every
member of that one has a match.  Nothing else is kept, since a name stands for one member only. -/
theorem reordered_keep_iff {names : List String} (h : DistinctNames members)
    (hnames : others.map Prod.fst = names) (hdistinct : names.Nodup) :
    Reordered ((object members).keep names) (.object others) ↔
      ∀ member ∈ others, ∃ value, (member.1, value) ∈ members ∧ Reordered value member.2 := by
  constructor
  · intro hreordered member hmember
    obtain ⟨value, hvalue, hmatch⟩ := hreordered.exists_mem hmember
    exact ⟨value, List.mem_of_mem_filter hvalue, hmatch⟩
  · intro hmatches
    obtain ⟨moved, hsubset, hmoved⟩ := exists_reorderedMembers hmatches
    have hmovedNames : moved.map Prod.fst = names := by rw [hmoved.map_fst_eq, hnames]
    refine .object ?_ hmoved
    have hkept : (members.filter fun member => names.contains member.1).Nodup :=
      (List.Nodup.of_map _ h).filter _
    have hmovedNodup : moved.Nodup := by
      rw [← hmovedNames] at hdistinct
      exact List.Nodup.of_map _ hdistinct
    rw [List.perm_ext_iff_of_nodup hkept hmovedNodup]
    rintro ⟨name, value⟩
    rw [List.mem_filter, List.contains_iff_mem, ← hmovedNames]
    constructor
    · rintro ⟨hmem, hname⟩
      obtain ⟨⟨_, other⟩, hother, rfl⟩ := List.mem_map.mp hname
      rwa [h.eq_of_mem hmem (hsubset hother)]
    · intro hmem
      exact ⟨hsubset hmem, List.mem_map_of_mem hmem⟩

end Members

end Augury.Json
