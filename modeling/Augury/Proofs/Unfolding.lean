import Augury.Proofs.Faults

/-!
# Unfolding a reference

A prompt that is nothing but a reference to a known table leads to the text of this table, one level
deeper.  Where the levels are counted from shows in nothing but the limit that the error about the nesting
names (`planWithin_underLimit`).  The prompt is therefore resolved under a limit as the text of its table
is under the limit before: with the same draws, to the same result, or with the error of that text as it
is seen from outside of the table (`resolveRecorded_reference`).

No table is entered under the limit zero, whatever the table holds.
-/

set_option autoImplicit false

namespace Augury.Prompt

open Augury.Random (Script Source)

/-! ## Errors and plans under another limit -/

/-- An error as it is under another limit.  Only the error about the nesting names the limit. -/
def Error.underLimit (limit : Nat) : Error → Error
  | .tooDeep table _ => .tooDeep table limit
  | error => error

/-- A plan whose error is seen under another limit. -/
def Plan.underLimit (limit : Nat) (p : Plan) : Plan :=
  { p with error := p.error.map (Error.underLimit limit) }

theorem Error.underLimit_of_ne {error : Error} (h : ∀ table bound, error ≠ .tooDeep table bound)
    (limit : Nat) : error.underLimit limit = error := by
  cases error with
  | tooDeep table bound => exact absurd rfl (h table bound)
  | _ => rfl

theorem Error.within_of_ne {error : Error} (h : ∀ table bound, error ≠ .tooDeep table bound)
    (name : String) : error.within name = .inTable name error := by
  cases error with
  | tooDeep table bound => exact absurd rfl (h table bound)
  | _ => rfl

/-- A table leaves the error about the nesting as it is, and the limit is no part of the others. -/
theorem Error.underLimit_within (limit : Nat) (name : String) (error : Error) :
    (error.within name).underLimit limit = (error.underLimit limit).within name := by
  cases error <;> rfl

namespace Plan

variable (limit : Nat)

theorem underLimit_fail (error : Error) :
    (fail error).underLimit limit = fail (error.underLimit limit) := rfl

theorem underLimit_within (name : String) (p : Plan) :
    (p.within name).underLimit limit = (p.underLimit limit).within name := by
  simp only [underLimit, within, Option.map_map, Function.comp_def, Error.underLimit_within]

theorem underLimit_append (first second : Plan) :
    (first.append second).underLimit limit =
      (first.underLimit limit).append (second.underLimit limit) := by
  cases herror : first.error with
  | some error => simp [append, underLimit, herror]
  | none => simp [append, underLimit, herror]

/-- The limit is no reason to refuse a leaf. -/
theorem underLimit_ofLeaf (node : Node) : (ofLeaf node).underLimit limit = ofLeaf node := by
  unfold ofLeaf
  cases hrefused : node.refusal? with
  | none => rfl
  | some error =>
    have hne : ∀ table bound, error ≠ .tooDeep table bound := by
      rintro table bound rfl
      exact refusal?_ne_tooDeep node table bound hrefused
    show (fail error).underLimit limit = fail error
    rw [underLimit_fail, Error.underLimit_of_ne hne]

theorem append_done (p : Plan) : p.append done = p := by
  cases herror : p.error with
  | some error => exact append_of_error_eq_some herror
  | none =>
    rw [append_of_error_eq_none herror]
    show { leaves := p.leaves ++ [], error := none } = p
    rw [List.append_nil, ← herror]

end Plan

section Limits

variable {tables : Tables} {limit : Nat} {expand expand' : String → String → Plan}

theorem planNodes_underLimit
    (hexpand : ∀ name body, (expand name body).underLimit limit = expand' name body)
    (nodes : List Node) :
    (planNodes tables expand nodes).underLimit limit = planNodes tables expand' nodes := by
  induction nodes with
  | nil => rfl
  | cons node nodes ih =>
    have hnode : (node.plan tables expand).underLimit limit = node.plan tables expand' := by
      cases node with
      | table name =>
        simp only [Node.plan]
        cases tables[name]? with
        | some body => exact hexpand name body
        | none => exact Plan.underLimit_ofLeaf limit _
      | text value => exact Plan.underLimit_ofLeaf limit _
      | choice options => exact Plan.underLimit_ofLeaf limit _
      | dice d => exact Plan.underLimit_ofLeaf limit _
    rw [planNodes_cons, planNodes_cons, Plan.underLimit_append, hnode, ih]

theorem planText_underLimit
    (hexpand : ∀ name body, (expand name body).underLimit limit = expand' name body)
    (text : String) :
    (planText tables expand text).underLimit limit = planText tables expand' text := by
  cases hparse : parse text with
  | error unclosed =>
    rw [planText_of_parse_eq_error hparse, planText_of_parse_eq_error hparse]
    rfl
  | ok nodes =>
    rw [planText_of_parse_eq_ok hparse, planText_of_parse_eq_ok hparse]
    exact planNodes_underLimit hexpand nodes

/-- **Only the levels that are left decide a plan.**  The limit that they were counted down from is named
in the error about the nesting and has no other say. -/
theorem planWithin_underLimit (tables : Tables) (limit other levels : Nat) (text : String) :
    (planWithin tables other levels text).underLimit limit = planWithin tables limit levels text := by
  induction levels generalizing text with
  | zero =>
    refine planText_underLimit ?_ text
    intro name body
    rfl
  | succ levels ih =>
    refine planText_underLimit ?_ text
    intro name body
    rw [Plan.underLimit_within, ih]

/-- The error about the nesting names the limit of the resolution. -/
theorem eq_of_error_planWithin_eq_tooDeep {levels bound : Nat} {text table : String}
    (h : (planWithin tables limit levels text).error = some (.tooDeep table bound)) :
    bound = limit := by
  have hsame : (planWithin tables limit levels text).error.map (Error.underLimit limit) =
      (planWithin tables limit levels text).error :=
    congrArg Plan.error (planWithin_underLimit tables limit limit levels text)
  rw [h, Option.map_some, Option.some_inj] at hsame
  injection hsame with _ hbound
  exact hbound.symm

end Limits

/-! ## References on their own -/

theorem parse_reference {name : String} (hname : ']' ∉ name.toList) :
    parse ("[" ++ name ++ "]") = .ok [.table name] := by
  have hreads : Reads (Block.table.opener :: name.toList ++ [Block.table.closer])
      (Node.cons (.block .table name.toList) []) none := .block hname .nil
  have htext : ("[" ++ name ++ "]").toList =
      Block.table.opener :: name.toList ++ [Block.table.closer] := by
    simp [Block.opener, Block.closer]
  rw [parse_eq_ok_iff_reads, htext]
  simpa only [Node.cons, String.ofList_toList] using hreads

section Reference

variable {tables : Tables} {name body : String}

theorem planText_reference (hname : ']' ∉ name.toList) (hbody : tables[name]? = some body)
    (expand : String → String → Plan) :
    planText tables expand ("[" ++ name ++ "]") = expand name body := by
  rw [planText_of_parse_eq_ok (parse_reference hname), planNodes_cons, planNodes_nil,
    Plan.append_done]
  simp only [Node.plan, hbody]

/-- The plan of a reference is the one of the text of its table under the limit before, seen from outside
of the table. -/
theorem plan_reference_succ (hname : ']' ∉ name.toList) (hbody : tables[name]? = some body)
    (limit : Nat) :
    plan tables (limit + 1) ("[" ++ name ++ "]") =
      ((plan tables limit body).underLimit (limit + 1)).within name := by
  calc plan tables (limit + 1) ("[" ++ name ++ "]")
    _ = (planWithin tables (limit + 1) limit body).within name := planText_reference hname hbody _
    _ = ((plan tables limit body).underLimit (limit + 1)).within name := by
      rw [plan, planWithin_underLimit]

variable {σ : Type} [Source σ]

theorem resolveRecorded_reference_zero (hname : ']' ∉ name.toList)
    (hbody : tables[name]? = some body) (s : σ) :
    resolveRecorded tables 0 ("[" ++ name ++ "]") s =
      (.error (.tooDeep name 0), { source := s, draws := #[] }) := by
  have hplan : plan tables 0 ("[" ++ name ++ "]") = Plan.fail (.tooDeep name 0) :=
    planText_reference hname hbody _
  rw [resolveRecorded_eq, hplan]
  rfl

theorem resolveRecorded_reference_succ (hname : ']' ∉ name.toList)
    (hbody : tables[name]? = some body) (limit : Nat) (s : σ) :
    resolveRecorded tables (limit + 1) ("[" ++ name ++ "]") s =
      ((resolveRecorded tables limit body s).1.mapError fun error =>
          (error.underLimit (limit + 1)).within name,
        (resolveRecorded tables limit body s).2) := by
  rw [resolveRecorded_eq, resolveRecorded_eq, plan_reference_succ hname hbody]
  cases herror : (plan tables limit body).error with
  | none => simp [Plan.within, Plan.underLimit, Plan.outcome, herror, Except.mapError]
  | some error => simp [Plan.within, Plan.underLimit, Plan.outcome, herror, Except.mapError]

/-- **Unfolding a reference.**  Under the limit zero the reference to a known table fails before anything
is drawn.  Under a higher limit it makes the draws of the text of the table under the limit before, and
comes to its result; where the tables in this text nest too deeply the error names the higher limit, and
every other error gets the name of the table around it. -/
theorem resolveRecorded_reference (hname : ']' ∉ name.toList) (hbody : tables[name]? = some body)
    (s : σ) :
    resolveRecorded tables 0 ("[" ++ name ++ "]") s =
        (.error (.tooDeep name 0), { source := s, draws := #[] }) ∧
      ∀ limit, 1 ≤ limit →
        let outer := resolveRecorded tables limit ("[" ++ name ++ "]") s
        let inner := resolveRecorded tables (limit - 1) body s
        outer.2 = inner.2 ∧
          (∀ result, inner.1 = .ok result → outer.1 = .ok result) ∧
          (∀ table, inner.1 = .error (.tooDeep table (limit - 1)) →
            outer.1 = .error (.tooDeep table limit)) ∧
          ∀ error, inner.1 = .error error → (∀ table, error ≠ .tooDeep table (limit - 1)) →
            outer.1 = .error (.inTable name error) := by
  refine ⟨resolveRecorded_reference_zero hname hbody s, ?_⟩
  intro limit hlimit
  obtain ⟨levels, rfl⟩ : ∃ levels, limit = levels + 1 := Nat.exists_eq_add_of_le' hlimit
  rw [Nat.add_sub_cancel, resolveRecorded_reference_succ hname hbody]
  refine ⟨rfl, ?_, ?_, ?_⟩
  · intro result hinner
    show (resolveRecorded tables levels body s).1.mapError _ = _
    rw [hinner]
    rfl
  · intro table hinner
    show (resolveRecorded tables levels body s).1.mapError _ = _
    rw [hinner]
    rfl
  · intro error hinner hne
    have hlimits : ∀ table bound, error ≠ .tooDeep table bound := by
      rintro table bound rfl
      have hplan := resolveRecorded_eq_error_iff.mp hinner
      obtain rfl := eq_of_error_planWithin_eq_tooDeep hplan
      exact hne table rfl
    show (resolveRecorded tables levels body s).1.mapError _ = _
    rw [hinner]
    show Except.error ((error.underLimit (levels + 1)).within name) = _
    rw [Error.underLimit_of_ne hlimits, Error.within_of_ne hlimits]

end Reference

/-- A table that refers to itself comes to the limit two with the draws of its text under the limit one;
and dice without sides are reported inside their table. -/
theorem resolveRecorded_reference_loop :
    let tables := Tables.ofList [("loop", "\x7ba|b\x7d[loop]"), ("bad", "\x7ba|b\x7d0d6")]
    let ones : Script := { values := #[1] }
    ']' ∉ "loop".toList ∧ tables["loop"]? = some "\x7ba|b\x7d[loop]" ∧
      resolveRecorded tables 0 "[loop]" ones =
        (.error (.tooDeep "loop" 0), { source := ones, draws := #[] }) ∧
      (resolveRecorded tables 2 "[loop]" ones).1 = .error (.tooDeep "loop" 2) ∧
      (resolveRecorded tables 2 "[loop]" ones).2 =
        { source := { values := #[1], position := 2 }, draws := #[⟨2, 1⟩, ⟨2, 1⟩] } ∧
      (resolveRecorded tables 1 "[bad]" ones).1 =
        .error (.inTable "bad" (.dice (.notPositive "0d6"))) := by
  intro tables ones
  have hloop : ']' ∉ "loop".toList := by decide
  have hbad : ']' ∉ "bad".toList := by decide
  have hbody : tables["loop"]? = some "\x7ba|b\x7d[loop]" := by cbv
  have hdice : tables["bad"]? = some "\x7ba|b\x7d0d6" := by cbv
  have hinner : resolveRecorded tables 1 "\x7ba|b\x7d[loop]" ones =
      (.error (.tooDeep "loop" 1),
        { source := { values := #[1], position := 2 }, draws := #[⟨2, 1⟩, ⟨2, 1⟩] }) := by cbv
  have hrefused : (resolveRecorded tables 0 "\x7ba|b\x7d0d6" ones).1 =
      .error (.dice (.notPositive "0d6")) := by cbv
  obtain ⟨hzero, hlimits⟩ := resolveRecorded_reference hloop hbody ones
  obtain ⟨hstate, -, htooDeep, -⟩ := hlimits 2 (by decide)
  obtain ⟨-, hothers⟩ := resolveRecorded_reference hbad hdice ones
  obtain ⟨-, -, -, hwrapped⟩ := hothers 1 (by decide)
  refine ⟨hloop, hbody, hzero, htooDeep "loop" (congrArg Prod.fst hinner),
    hstate.trans (congrArg Prod.snd hinner), hwrapped _ hrefused ?_⟩
  intro table
  exact Error.noConfusion

end Augury.Prompt
