import Augury.Proofs.Faults

/-!
# The nesting limit

The limit on nested tables decides nothing but where a resolution is cut short.  Under a lower limit a
text has the plan that it has under a higher one, or the front of it and then the error about the limit
(`curtails_planWithin`), and so it is with the resolutions (`resolveRecorded_eq_or_cut`).

Once the limit is as high as there are tables, only cycles reach it, and a cycle reaches every limit
(`resolveRecorded_tooDeep_cycles`).
-/

set_option autoImplicit false

namespace Augury.Prompt

open Augury.Random (LawfulSource Script Source)

/-! ## Curtailed plans -/

/-- The first plan is the second one, or it is cut short by the limit. -/
def Plan.Curtails (limit : Nat) (short long : Plan) : Prop :=
  short = long ∨
    (∃ name, short.error = some (.tooDeep name limit)) ∧ short.leaves <+: long.leaves

namespace Plan

variable {limit : Nat} {first first' second second' : Plan}

theorem prefix_leaves_append (first second : Plan) :
    first.leaves <+: (first.append second).leaves := by
  cases herror : first.error with
  | some error => simp [append_of_error_eq_some herror]
  | none =>
    rw [append_of_error_eq_none herror]
    exact List.prefix_append first.leaves second.leaves

theorem Curtails.refl (p : Plan) : Curtails limit p p := .inl rfl

theorem curtails_fail (name : String) (p : Plan) : (fail (.tooDeep name limit)).Curtails limit p :=
  .inr ⟨⟨name, rfl⟩, List.nil_prefix⟩

theorem Curtails.append (hfirst : Curtails limit first first')
    (hsecond : Curtails limit second second') :
    Curtails limit (first.append second) (first'.append second') := by
  rcases hfirst with rfl | ⟨⟨name, hcut⟩, hleaves⟩
  · cases herror : first.error with
    | some error =>
      rw [append_of_error_eq_some herror, append_of_error_eq_some herror]
      exact .refl first
    | none =>
      rw [append_of_error_eq_none herror, append_of_error_eq_none herror]
      rcases hsecond with rfl | ⟨hcut, hleaves⟩
      · exact .refl _
      · exact .inr ⟨hcut, (List.prefix_append_right_inj first.leaves).mpr hleaves⟩
  · -- nothing follows the cut, whatever the second plans are
    rw [append_of_error_eq_some hcut]
    exact .inr ⟨⟨name, hcut⟩, hleaves.trans (prefix_leaves_append first' second')⟩

theorem Curtails.within (table : String) (h : Curtails limit first first') :
    Curtails limit (first.within table) (first'.within table) := by
  rcases h with rfl | ⟨⟨name, hcut⟩, hleaves⟩
  · exact .refl _
  · -- the error about the limit is the one that a table leaves as it is
    have hwithin : (first.within table).error = some (.tooDeep name limit) := by
      rw [error_within, hcut]
      rfl
    exact .inr ⟨⟨name, hwithin⟩, hleaves⟩

end Plan

section Curtails

variable {tables : Tables} {limit : Nat} {expand expand' : String → String → Plan}

theorem curtails_planNodes
    (hexpand : ∀ name body, (expand name body).Curtails limit (expand' name body))
    (nodes : List Node) :
    (planNodes tables expand nodes).Curtails limit (planNodes tables expand' nodes) := by
  induction nodes with
  | nil => exact .refl _
  | cons node nodes ih =>
    rw [planNodes_cons, planNodes_cons]
    refine Plan.Curtails.append ?_ ih
    cases node with
    | table name =>
      simp only [Node.plan]
      cases tables[name]? with
      | some body => exact hexpand name body
      | none => exact .refl _
    | text value => exact .refl _
    | choice options => exact .refl _
    | dice d => exact .refl _

theorem curtails_planText
    (hexpand : ∀ name body, (expand name body).Curtails limit (expand' name body))
    (text : String) :
    (planText tables expand text).Curtails limit (planText tables expand' text) := by
  cases hparse : parse text with
  | error unclosed =>
    rw [planText_of_parse_eq_error hparse, planText_of_parse_eq_error hparse]
    exact .refl _
  | ok nodes =>
    rw [planText_of_parse_eq_ok hparse, planText_of_parse_eq_ok hparse]
    exact curtails_planNodes hexpand nodes

/-- Fewer levels under a lower limit cut a plan short and change nothing else. -/
theorem curtails_planWithin (tables : Tables) (limit higher : Nat) {levels more : Nat}
    (h : levels ≤ more) (text : String) :
    (planWithin tables limit levels text).Curtails limit (planWithin tables higher more text) := by
  induction levels generalizing more text with
  | zero =>
    cases more with
    | zero => exact curtails_planText (fun name body => Plan.curtails_fail name _) text
    | succ more => exact curtails_planText (fun name body => Plan.curtails_fail name _) text
  | succ levels ih =>
    obtain ⟨more, rfl⟩ : ∃ k, more = k + 1 := Nat.exists_eq_succ_of_ne_zero (by omega)
    refine curtails_planText ?_ text
    intro name body
    exact (ih (Nat.le_of_succ_le_succ h) body).within name

end Curtails

/-! ## Resolutions under two limits -/

variable {σ : Type} [Source σ] {tables : Tables} {limit higher : Nat} {text : String}

theorem resolveRecorded_eq_of_plan_eq (h : plan tables limit text = plan tables higher text)
    (s : σ) : resolveRecorded tables limit text s = resolveRecorded tables higher text s := by
  rw [resolveRecorded_eq, resolveRecorded_eq, h]

/-- **The limit only ever cuts a resolution short.**  Under a lower limit a resolution is the one under
the higher limit, or it fails because of the limit after some of the same draws. -/
theorem resolveRecorded_eq_or_cut [LawfulSource σ] (tables : Tables) (text : String) (s : σ)
    (h : limit ≤ higher) :
    resolveRecorded tables limit text s = resolveRecorded tables higher text s ∨
      (∃ name, (resolveRecorded tables limit text s).1 = .error (.tooDeep name limit)) ∧
        (resolveRecorded tables limit text s).2.draws.toList <+:
          (resolveRecorded tables higher text s).2.draws.toList := by
  have hcurtails : (plan tables limit text).Curtails limit (plan tables higher text) :=
    curtails_planWithin tables limit higher h text
  rcases hcurtails with heq | ⟨⟨name, hcut⟩, hleaves⟩
  · exact .inl (resolveRecorded_eq_of_plan_eq heq s)
  · refine .inr ⟨⟨name, resolveRecorded_eq_error_iff.mpr hcut⟩, ?_⟩
    rw [resolveRecorded_eq, resolveRecorded_eq]
    exact prefix_draws_emitAll hleaves (accepted_planWithin tables higher higher text) _

/-- A table that refers to itself draws once on every level. -/
theorem resolveRecorded_eq_or_cut_loop :
    let tables := Tables.ofList [("loop", "\x7ba|b\x7d[loop]")]
    let ones : Script := { values := #[1] }
    1 ≤ 3 ∧ (∃ name, (resolveRecorded tables 1 "[loop]" ones).1 = .error (.tooDeep name 1)) ∧
      (resolveRecorded tables 1 "[loop]" ones).2.draws.toList <+:
        (resolveRecorded tables 3 "[loop]" ones).2.draws.toList := by
  intro tables ones
  have hlow : (resolveRecorded tables 1 "[loop]" ones).1 = .error (.tooDeep "loop" 1) := by cbv
  have hhigh : (resolveRecorded tables 3 "[loop]" ones).1 = .error (.tooDeep "loop" 3) := by cbv
  have hne : resolveRecorded tables 1 "[loop]" ones ≠ resolveRecorded tables 3 "[loop]" ones := by
    intro heq
    rw [heq, hhigh] at hlow
    cases hlow
  have hle : 1 ≤ 3 := by decide
  exact ⟨hle, (resolveRecorded_eq_or_cut tables "[loop]" ones hle).resolve_left hne⟩

/-! ## Cycles -/

/-- Only cycles reach a limit that is as high as there are tables. -/
theorem cyclic_of_error_plan_eq_tooDeep (hsize : tables.size ≤ limit) {name : String} {bound : Nat}
    (h : (plan tables limit text).error = some (.tooDeep name bound)) : Cyclic tables text := by
  generalize herror : Error.tooDeep name bound = error at h
  cases failure_of_error_planWithin h with
  | @fault names reached cause hwalk hlevels hfault =>
    cases names with
    | nil =>
      rw [Error.inTables_nil] at herror
      rw [← herror] at hfault
      exact absurd hfault (not_fault_tooDeep reached name bound)
    | cons first names => cases herror
  | @tooDeep names last body hwalk hlevels =>
    -- the walk to the refused table is one longer than the limit
    apply cyclic_of_size_lt_length hwalk
    rw [List.length_append, List.length_singleton, hlevels]
    omega

/-- No limit is high enough for a cycle. -/
theorem Cyclic.error_plan_ne_none (h : Cyclic tables text) (limit : Nat) :
    (plan tables limit text).error ≠ none := by
  intro hnone
  obtain ⟨names, reached, hwalk, hlength⟩ := h.exists_long_walk limit
  have hle := (hwalk.of_error_planWithin_eq_none hnone).1
  omega

/-- A plan without an error is the plan under every limit that is as high as there are tables. -/
theorem plan_eq_of_error_eq_none (hsize : tables.size ≤ higher)
    (h : (plan tables limit text).error = none) :
    plan tables higher text = plan tables limit text := by
  rcases Nat.le_total limit higher with hle | hle
  · rcases curtails_planWithin tables limit higher hle text with heq | ⟨⟨name, hcut⟩, -⟩
    · exact heq.symm
    · rw [← plan, h] at hcut
      cases hcut
  · rcases curtails_planWithin tables higher limit hle text with heq | ⟨⟨name, hcut⟩, -⟩
    · exact heq
    · have hcyclic : Cyclic tables text := cyclic_of_error_plan_eq_tooDeep hsize hcut
      exact absurd h (hcyclic.error_plan_ne_none limit)

/-- **A limit that is as high as there are tables finds the cycles and nothing else.**  Where a
resolution fails because of such a limit there is a cycle; where there is a cycle it fails under every
limit; and what can be resolved under some limit is resolved in the same way under all limits that are
high enough. -/
theorem resolveRecorded_tooDeep_cycles (tables : Tables) (text : String) (s : σ) :
    (∀ limit name bound, tables.size ≤ limit →
        (resolveRecorded tables limit text s).1 = .error (.tooDeep name bound) →
        Cyclic tables text) ∧
      (Cyclic tables text →
        ∀ limit, ∃ error, (resolveRecorded tables limit text s).1 = .error error) ∧
      (∀ limit higher result, tables.size ≤ higher →
        (resolveRecorded tables limit text s).1 = .ok result →
        resolveRecorded tables higher text s = resolveRecorded tables limit text s) := by
  refine ⟨?_, ?_, ?_⟩
  · intro limit name bound hsize herror
    exact cyclic_of_error_plan_eq_tooDeep hsize (resolveRecorded_eq_error_iff.mp herror)
  · intro hcyclic limit
    obtain ⟨error, herror⟩ := Option.ne_none_iff_exists'.mp (hcyclic.error_plan_ne_none limit)
    exact ⟨error, resolveRecorded_eq_error_iff.mpr herror⟩
  · intro limit higher result hsize hrun
    have hplan := exists_resolveRecorded_eq_ok_iff.mp ⟨result, hrun⟩
    exact resolveRecorded_eq_of_plan_eq (plan_eq_of_error_eq_none hsize hplan) s

/-- Two tables that refer to each other are found under the limit three, for there are three tables, and
no limit is high enough for them; the third table is resolved in the same way under all limits from there
on. -/
theorem resolveRecorded_tooDeep_cycles_ping_pong :
    let tables := Tables.ofList [("ping", "[pong]"), ("pong", "[ping]"), ("rest", "\x7ba|b\x7d")]
    let ones : Script := { values := #[1] }
    Cyclic tables "[ping]" ∧
      (∀ limit, ∃ error, (resolveRecorded tables limit "[ping]" ones).1 = .error error) ∧
      ∀ limit, 3 ≤ limit →
        resolveRecorded tables limit "[rest]" ones = resolveRecorded tables 1 "[rest]" ones := by
  intro tables ones
  have hsize : tables.size = 3 := by cbv
  have hle : tables.size ≤ 3 := Nat.le_of_eq hsize
  have hcycle : (resolveRecorded tables 3 "[ping]" ones).1 = .error (.tooDeep "pong" 3) := by cbv
  have hrest : (resolveRecorded tables 1 "[rest]" ones).1 = .ok "a" := by cbv
  obtain ⟨hfound, hfails, -⟩ := resolveRecorded_tooDeep_cycles tables "[ping]" ones
  have hcyclic : Cyclic tables "[ping]" := hfound 3 "pong" 3 hle hcycle
  obtain ⟨-, -, hresolved⟩ := resolveRecorded_tooDeep_cycles tables "[rest]" ones
  refine ⟨hcyclic, hfails hcyclic, ?_⟩
  intro limit hlimit
  exact hresolved 1 limit "a" (Nat.le_trans hle hlimit) hrest

end Augury.Prompt
