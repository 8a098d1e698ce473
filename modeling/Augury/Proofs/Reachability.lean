import Augury.Proofs.Emission
import Augury.Proofs.Walks
import Augury.Session

/-!
# The tables that matter

A text reaches the names that it refers to and the names that the texts of reached tables refer to
(`Reaches`).  A name that is merely spelled somewhere, inside an option of a choice or inside another
name, is not reached, and neither is one that only turns up in what was drawn.

Resolving a text looks up reached names only.  Where two tables agree on these, the text has one plan
under both (`plan_congr`), and so the same outcome, the same draws and the same state of the source
afterwards (`resolveRecorded_eq_of_agree_on_reached`).
-/

set_option autoImplicit false

namespace Augury.Prompt

open Augury.Random (Recorded Script Source)

/-! ## Reached names -/

/-- The names that a text leads to, with or without a table of that name. -/
inductive Reaches (tables : Tables) (text : String) : String → Prop where
  | refers {name : String} (hrefers : Refers text name) : Reaches tables text name
  | enter {name body inner : String} (hname : Reaches tables text name)
      (hbody : tables[name]? = some body) (hinner : Refers body inner) : Reaches tables text inner

variable {tables other : Tables} {text name body : String}

/-- Reached names belong to every set that holds the names in the text and, with the name of a known
table, the names in its text. -/
theorem Reaches.of_closed {P : String → Prop} (hstart : ∀ name, Refers text name → P name)
    (hclosed : ∀ name body inner, P name → tables[name]? = some body → Refers body inner → P inner)
    (h : Reaches tables text name) : P name := by
  induction h with
  | refers hrefers => exact hstart _ hrefers
  | enter hname hbody hinner ih => exact hclosed _ _ _ ih hbody hinner

/-- What the text of a table reaches is reached from where the table is referred to. -/
theorem Reaches.of_body (hrefers : Refers text name) (hbody : tables[name]? = some body)
    {inner : String} (h : Reaches tables body inner) : Reaches tables text inner := by
  have hname : Reaches tables text name := .refers hrefers
  refine h.of_closed ?_ ?_
  · intro inner hinner
    exact .enter hname hbody hinner
  · intro between body inner hbetween hbody hinner
    exact .enter hbetween hbody hinner

/-- Without tables nothing is reached but the names in the text. -/
theorem reaches_empty_iff : Reaches ∅ text name ↔ Refers text name := by
  constructor
  · intro h
    refine h.of_closed (fun _ hrefers => hrefers) ?_
    intro between body inner _ hbody
    rw [Std.TreeMap.getElem?_emptyc] at hbody
    cases hbody
  · exact .refers

theorem refers_iff_of_parse {nodes : List Node} (hparse : parse text = .ok nodes) :
    Refers text name ↔ .table name ∈ nodes := by
  constructor
  · rintro ⟨others, hothers, hmem⟩
    obtain rfl : nodes = others := Except.ok.inj (hparse.symm.trans hothers)
    exact hmem
  · intro hmem
    exact ⟨nodes, hparse, hmem⟩

/-! ## Plans under tables that agree -/

section Plans

variable {expand expand' : String → String → Plan}

/-- The plan of a text asks for the tables that the text refers to, and for how these are expanded. -/
theorem planText_congr (hnames : ∀ name, Refers text name → tables[name]? = other[name]?)
    (hexpand : ∀ name body, Refers text name → tables[name]? = some body →
      expand name body = expand' name body) :
    planText tables expand text = planText other expand' text := by
  cases hparse : parse text with
  | error unclosed => rw [planText_of_parse_eq_error hparse, planText_of_parse_eq_error hparse]
  | ok nodes =>
    rw [planText_of_parse_eq_ok hparse, planText_of_parse_eq_ok hparse]
    unfold planNodes
    apply List.foldr_ext
    intro node hnode rest
    congr 1
    cases node with
    | text value => rfl
    | choice options => rfl
    | dice d => rfl
    | table name =>
      have hrefers : Refers text name := ⟨nodes, hparse, hnode⟩
      simp only [Node.plan]
      rw [← hnames name hrefers]
      cases hbody : tables[name]? with
      | none => rfl
      | some body => exact hexpand name body hrefers hbody

end Plans

theorem planWithin_congr (limit levels : Nat)
    (h : ∀ name, Reaches tables text name → tables[name]? = other[name]?) :
    planWithin tables limit levels text = planWithin other limit levels text := by
  induction levels generalizing text with
  | zero =>
    apply planText_congr
    · intro name hrefers
      exact h name (.refers hrefers)
    · intro name body hrefers hbody
      rfl
  | succ levels ih =>
    apply planText_congr
    · intro name hrefers
      exact h name (.refers hrefers)
    · intro name body hrefers hbody
      -- what the text of the table reaches, the given text reaches as well
      have hinner : planWithin tables limit levels body = planWithin other limit levels body := by
        apply ih
        intro inner hinner
        exact h inner (hinner.of_body hrefers hbody)
      rw [hinner]

/-- A text has one plan under all tables that agree on the names that it reaches. -/
theorem plan_congr (limit : Nat)
    (h : ∀ name, Reaches tables text name → tables[name]? = other[name]?) :
    plan tables limit text = plan other limit text :=
  planWithin_congr limit limit h

/-! ## Resolutions under tables that agree -/

variable {σ : Type} [Source σ]

theorem resolve_congr (limit : Nat)
    (h : ∀ name, Reaches tables text name → tables[name]? = other[name]?) :
    (resolve tables limit text : Resolving σ String) = resolve other limit text := by
  rw [resolve_eq_perform, resolve_eq_perform, plan_congr limit h]

/-- **Only reached tables matter.**  A text is resolved in the same way under all tables that agree on the
names that it reaches: with the same result or error, the same draws, and the same state of the source
afterwards.  So a table that is not reached may be added, changed or removed, to have no tables is to have
empty ones, and a session in which the text refers to no known table answers as it does without tables. -/
theorem resolveRecorded_eq_of_agree_on_reached (tables : Tables) (text : String) :
    (∀ other : Tables, (∀ name, Reaches tables text name → tables[name]? = other[name]?) →
        ∀ (limit : Nat) (s : σ),
          resolveRecorded tables limit text s = resolveRecorded other limit text s) ∧
      (∀ name, ¬ Reaches tables text name → ∀ (body : String) (limit : Nat) (s : σ),
        resolveRecorded (tables.insert name body) limit text s =
            resolveRecorded tables limit text s ∧
          resolveRecorded (tables.erase name) limit text s =
            resolveRecorded tables limit text s) ∧
      (∀ (limit : Nat) (s : σ),
        resolveRecorded none limit text s = resolveRecorded (some ∅) limit text s) ∧
      ∀ session : Session (Recorded σ), (∀ name, Refers text name → session.tables[name]? = none) →
        session.perform (.resolveBare text) = session.perform (.resolve text) := by
  have hagree : ∀ other : Tables,
      (∀ name, Reaches tables text name → tables[name]? = other[name]?) →
        ∀ (limit : Nat) (s : σ),
          resolveRecorded tables limit text s = resolveRecorded other limit text s := by
    intro other h limit s
    rw [resolveRecorded, resolveRecorded, resolve_congr limit h]
  refine ⟨hagree, ?_, ?_, ?_⟩
  · intro name hname body limit s
    have hne : ∀ reached, Reaches tables text reached → compare name reached ≠ .eq := by
      intro reached hreached heq
      rw [Std.LawfulEqCmp.compare_eq_iff_eq] at heq
      exact hname (heq ▸ hreached)
    constructor
    · symm
      apply hagree
      intro reached hreached
      rw [Std.TreeMap.getElem?_insert, if_neg (hne reached hreached)]
    · symm
      apply hagree
      intro reached hreached
      rw [Std.TreeMap.getElem?_erase, if_neg (hne reached hreached)]
  · intro limit s
    exact resolveRecorded_eq_getD none limit text s
  · intro session hunknown
    have hresolve : (resolve none session.limit text : Resolving (Recorded σ) String) =
        resolve session.tables session.limit text := by
      rw [resolve_eq_resolve_getD, Option.getD_none]
      apply resolve_congr
      intro name hname
      rw [Std.TreeMap.getElem?_emptyc, hunknown name (reaches_empty_iff.mp hname)]
    simp only [Session.perform, hresolve]

/-- The name of a table that cannot be read is spelled in an option, and in the text of a table to which
nothing refers; neither reaches it. -/
theorem resolveRecorded_eq_of_agree_on_reached_spelled :
    let tables := Tables.ofList [("x", "\x7b"), ("y", "[w]2d6"), ("z", "[x]")]
    ¬ Reaches tables "\x7b[x]|a\x7d[y]" "x" ∧ ∀ (body : String) (limit : Nat) (s : Script),
      resolveRecorded (tables.insert "x" body) limit "\x7b[x]|a\x7d[y]" s =
          resolveRecorded tables limit "\x7b[x]|a\x7d[y]" s ∧
        resolveRecorded (tables.erase "x") limit "\x7b[x]|a\x7d[y]" s =
          resolveRecorded tables limit "\x7b[x]|a\x7d[y]" s := by
  intro tables
  have htext : parse "\x7b[x]|a\x7d[y]" = .ok [.choice ["[x]", "a"], .table "y"] := by cbv
  have hbody : parse "[w]2d6" = .ok [.table "w", .dice { count := 2, sides := 6 }] := by cbv
  have hy : tables["y"]? = some "[w]2d6" := by cbv
  have hw : tables["w"]? = none := by cbv
  have hreached : ∀ name, Reaches tables "\x7b[x]|a\x7d[y]" name → name = "y" ∨ name = "w" := by
    intro name h
    refine h.of_closed (P := fun name => name = "y" ∨ name = "w") ?_ ?_
    · intro name hrefers
      rw [refers_iff_of_parse htext] at hrefers
      exact .inl (by simpa using hrefers)
    · rintro name body inner (rfl | rfl) hknown hinner
      · obtain rfl := Option.some.inj (hy.symm.trans hknown)
        rw [refers_iff_of_parse hbody] at hinner
        exact .inr (by simpa using hinner)
      · rw [hw] at hknown
        cases hknown
  have hx : ¬ Reaches tables "\x7b[x]|a\x7d[y]" "x" := by
    intro h
    rcases hreached "x" h with heq | heq <;> simp at heq
  obtain ⟨-, hframe, -⟩ :=
    resolveRecorded_eq_of_agree_on_reached (σ := Script) tables "\x7b[x]|a\x7d[y]"
  exact ⟨hx, hframe "x" hx⟩

end Augury.Prompt
