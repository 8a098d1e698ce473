import Augury.Proofs.Numerals

/-!
# Runs of digits in a text

A run is a stretch of digits that no digit touches on either side (`IsRun`).  A property of every
run of a text is checked from left to right: characters that are no digits are passed over
(`everyRun_cons`), and a run in front is checked on its own (`everyRun_append`).  How far the digits
at the front of a text reach is settled by the first part of it that does not end in a digit
(`leadingDigits_append`).
-/

set_option autoImplicit false

namespace Augury.Text

/-- Whether the first character of a text is a digit. -/
def startsWithDigit (cs : List Char) : Bool :=
  cs.head?.any Char.isDigit

/-- Whether the last character of a text is a digit. -/
def endsWithDigit (cs : List Char) : Bool :=
  cs.getLast?.any Char.isDigit

/-- The middle one of three parts of a text is a run: it has digits, only digits, and all the digits
on the spot. -/
structure IsRun (front run back : List Char) : Prop where
  ne_nil : run ≠ []
  isDigit : ∀ c ∈ run, c.isDigit = true
  front : endsWithDigit front = false
  back : startsWithDigit back = false

/-- Every run of a text, together with what follows it in the text, has a property. -/
def EveryRun (P : List Char → List Char → Prop) (cs : List Char) : Prop :=
  ∀ front run back, cs = front ++ run ++ back → IsRun front run back → P run back

/-! ## The ends of a text -/

@[simp] theorem startsWithDigit_nil : startsWithDigit [] = false := rfl

@[simp] theorem startsWithDigit_cons (c : Char) (cs : List Char) :
    startsWithDigit (c :: cs) = c.isDigit := rfl

@[simp] theorem endsWithDigit_nil : endsWithDigit [] = false := rfl

@[simp] theorem endsWithDigit_singleton (c : Char) : endsWithDigit [c] = c.isDigit := rfl

theorem startsWithDigit_append {cs : List Char} (hne : cs ≠ []) (ds : List Char) :
    startsWithDigit (cs ++ ds) = startsWithDigit cs := by
  obtain ⟨c, rest, rfl⟩ := List.exists_cons_of_ne_nil hne
  rfl

theorem startsWithDigit_of_append {cs ds : List Char} (h : startsWithDigit (cs ++ ds) = false) :
    startsWithDigit cs = false := by
  cases cs with
  | nil => rfl
  | cons c cs => exact h

theorem endsWithDigit_append (cs : List Char) {ds : List Char} (hne : ds ≠ []) :
    endsWithDigit (cs ++ ds) = endsWithDigit ds := by
  unfold endsWithDigit
  rw [List.getLast?_append, List.getLast?_eq_some_getLast hne, Option.some_or]

theorem endsWithDigit_cons (c : Char) {cs : List Char} (hne : cs ≠ []) :
    endsWithDigit (c :: cs) = endsWithDigit cs :=
  endsWithDigit_append [c] hne

theorem startsWithDigit_of_isDigit {cs : List Char} (hne : cs ≠ [])
    (hdigits : ∀ c ∈ cs, c.isDigit = true) : startsWithDigit cs = true := by
  obtain ⟨c, rest, rfl⟩ := List.exists_cons_of_ne_nil hne
  exact hdigits c (by simp)

theorem endsWithDigit_of_isDigit {cs : List Char} (hne : cs ≠ [])
    (hdigits : ∀ c ∈ cs, c.isDigit = true) : endsWithDigit cs = true := by
  unfold endsWithDigit
  rw [List.getLast?_eq_some_getLast hne]
  exact hdigits _ (List.getLast_mem hne)

theorem startsWithDigit_of_isNumeralOf {n : Nat} {cs : List Char} (h : IsNumeralOf n cs) :
    startsWithDigit cs = true :=
  startsWithDigit_of_isDigit (ne_nil_of_isNumeralOf h) (isDigit_of_isNumeralOf h)

theorem endsWithDigit_of_isNumeralOf {n : Nat} {cs : List Char} (h : IsNumeralOf n cs) :
    endsWithDigit cs = true :=
  endsWithDigit_of_isDigit (ne_nil_of_isNumeralOf h) (isDigit_of_isNumeralOf h)

/-! ## The digits at the front -/

theorem leadingDigits_of_isDigit {run cs : List Char} (hrun : ∀ c ∈ run, c.isDigit = true)
    (hcs : startsWithDigit cs = false) : leadingDigits (run ++ cs) = run := by
  have hrest : cs.takeWhile Char.isDigit = [] := by
    cases cs with
    | nil => rfl
    | cons c cs => exact List.takeWhile_cons_of_neg (by simpa using hcs)
  unfold leadingDigits
  rw [List.takeWhile_append_of_pos hrun, hrest, List.append_nil]

theorem afterDigits_of_isDigit {run cs : List Char} (hrun : ∀ c ∈ run, c.isDigit = true)
    (hcs : startsWithDigit cs = false) : afterDigits (run ++ cs) = cs := by
  have happ := leadingDigits_append_afterDigits (run ++ cs)
  rw [leadingDigits_of_isDigit hrun hcs] at happ
  exact List.append_cancel_left happ

theorem append_cons_eq_append_cons_iff {run run' cs cs' : List Char} {c : Char}
    (hrun : ∀ x ∈ run, x.isDigit = true) (hrun' : ∀ x ∈ run', x.isDigit = true)
    (hc : c.isDigit = false) : run ++ c :: cs = run' ++ c :: cs' ↔ run = run' ∧ cs = cs' := by
  constructor
  · intro h
    have hstart : ∀ tail, startsWithDigit (c :: tail) = false := fun _ => hc
    have hfront := congrArg leadingDigits h
    have hafter := congrArg afterDigits h
    rw [leadingDigits_of_isDigit hrun (hstart cs), leadingDigits_of_isDigit hrun' (hstart cs')]
      at hfront
    rw [afterDigits_of_isDigit hrun (hstart cs), afterDigits_of_isDigit hrun' (hstart cs')]
      at hafter
    exact ⟨hfront, (List.cons.inj hafter).2⟩
  · rintro ⟨rfl, rfl⟩
    rfl

theorem leadingDigits_eq_nil {cs : List Char} (hcs : startsWithDigit cs = false) :
    leadingDigits cs = [] := by
  have hnil : ∀ c ∈ ([] : List Char), c.isDigit = true := by simp
  exact leadingDigits_of_isDigit hnil hcs

theorem startsWithDigit_afterDigits (cs : List Char) : startsWithDigit (afterDigits cs) = false := by
  cases h : afterDigits cs with
  | nil => rfl
  | cons c rest => exact isDigit_of_afterDigits h

theorem isRun_leadingDigits {cs : List Char} (h : startsWithDigit cs = true) :
    IsRun [] (leadingDigits cs) (afterDigits cs) where
  ne_nil := by
    obtain ⟨c, rest, rfl⟩ : ∃ c rest, cs = c :: rest := by
      cases cs with
      | nil => simp at h
      | cons c rest => exact ⟨c, rest, rfl⟩
    have hc : c.isDigit = true := h
    simp [leadingDigits, hc]
  isDigit := fun _ hc => isDigit_of_mem_leadingDigits hc
  front := rfl
  back := startsWithDigit_afterDigits cs

theorem IsRun.leadingDigits_append {front run back : List Char} (h : IsRun front run back) :
    leadingDigits (run ++ back) = run :=
  leadingDigits_of_isDigit h.isDigit h.back

theorem IsRun.afterDigits_append {front run back : List Char} (h : IsRun front run back) :
    afterDigits (run ++ back) = back :=
  afterDigits_of_isDigit h.isDigit h.back

/-- The digits in front end where the first part of a text ends, unless digits meet there. -/
theorem leadingDigits_append {cs ds : List Char} (hne : cs ≠ [])
    (h : endsWithDigit cs = true → startsWithDigit ds = false) :
    leadingDigits (cs ++ ds) = leadingDigits cs := by
  have happ := leadingDigits_append_afterDigits cs
  have hdigits : ∀ c ∈ leadingDigits cs, c.isDigit = true := fun _ hc =>
    isDigit_of_mem_leadingDigits hc
  by_cases hafter : afterDigits cs = []
  · rw [hafter, List.append_nil] at happ
    rw [happ] at hdigits ⊢
    exact leadingDigits_of_isDigit hdigits (h (endsWithDigit_of_isDigit hne hdigits))
  · have hstart : startsWithDigit (afterDigits cs ++ ds) = false := by
      rw [startsWithDigit_append hafter, startsWithDigit_afterDigits]
    calc
      leadingDigits (cs ++ ds) = leadingDigits (leadingDigits cs ++ (afterDigits cs ++ ds)) := by
        rw [← List.append_assoc, happ]
      _ = leadingDigits cs := leadingDigits_of_isDigit hdigits hstart

/-- Nor do they go on in a second part that does not start with a digit. -/
theorem leadingDigits_append_of_startsWithDigit (cs : List Char) {ds : List Char}
    (hds : startsWithDigit ds = false) : leadingDigits (cs ++ ds) = leadingDigits cs := by
  by_cases hcs : cs = []
  · rw [hcs, List.nil_append, leadingDigits_eq_nil hds, leadingDigits_eq_nil rfl]
  · exact leadingDigits_append hcs fun _ => hds

/-- The run at the front of a text, if there is one, is too large exactly when the digits in front are
no word. -/
theorem forall_run_oversized_iff {front cs : List Char} (hfront : endsWithDigit front = false) :
    (∀ run back, cs = run ++ back → IsRun front run back → Oversized run) ↔
      word? (leadingDigits cs) = none := by
  constructor
  · intro h
    cases hstart : startsWithDigit cs with
    | false => rw [leadingDigits_eq_nil hstart, word?_nil]
    | true =>
      have hrun := isRun_leadingDigits hstart
      rw [word?_eq_none_iff hrun.ne_nil hrun.isDigit]
      exact h _ _ (leadingDigits_append_afterDigits cs).symm
        ⟨hrun.ne_nil, hrun.isDigit, hfront, hrun.back⟩
  · rintro h run back rfl hrun
    rw [hrun.leadingDigits_append] at h
    exact (word?_eq_none_iff hrun.ne_nil hrun.isDigit).mp h

/-! ## Every run -/

section EveryRun

variable {P : List Char → List Char → Prop}

@[simp] theorem everyRun_nil : EveryRun P [] := by
  intro front run back h hrun
  have hnil : run = [] := by simp_all
  exact absurd hnil hrun.ne_nil

theorem everyRun_cons {c : Char} (hc : c.isDigit = false) (cs : List Char) :
    EveryRun P (c :: cs) ↔ EveryRun P cs := by
  constructor
  · rintro h front run back rfl hrun
    refine h (c :: front) run back rfl ⟨hrun.ne_nil, hrun.isDigit, ?_, hrun.back⟩
    by_cases hfront : front = []
    · rw [hfront, endsWithDigit_singleton, hc]
    · rw [endsWithDigit_cons c hfront, hrun.front]
  · intro h front run back hcs hrun
    cases front with
    | nil =>
      have hstart := startsWithDigit_of_isDigit hrun.ne_nil hrun.isDigit
      rw [← startsWithDigit_append hrun.ne_nil back] at hstart
      rw [List.nil_append] at hcs
      rw [← hcs, startsWithDigit_cons, hc] at hstart
      contradiction
    | cons x front =>
      obtain ⟨rfl, rfl⟩ := List.cons.inj hcs
      refine h front run back rfl ⟨hrun.ne_nil, hrun.isDigit, ?_, hrun.back⟩
      by_cases hfront : front = []
      · rw [hfront, endsWithDigit_nil]
      · rw [← endsWithDigit_cons c hfront, hrun.front]

/-- Of the runs of a text, a run at its front is one, and the others are those of what follows. -/
theorem everyRun_append {run cs : List Char} (hrun : IsRun [] run cs) :
    EveryRun P (run ++ cs) ↔ P run cs ∧ EveryRun P cs := by
  constructor
  · intro h
    refine ⟨h [] run cs rfl hrun, ?_⟩
    rintro front inner back rfl hinner
    have hne : front ≠ [] := by
      rintro rfl
      have hstart := startsWithDigit_of_isDigit hinner.ne_nil hinner.isDigit
      rw [← startsWithDigit_append hinner.ne_nil back] at hstart
      have hback := hrun.back
      rw [List.nil_append, hstart] at hback
      contradiction
    refine h (run ++ front) inner back (by simp) ⟨hinner.ne_nil, hinner.isDigit, ?_, hinner.back⟩
    rw [endsWithDigit_append run hne, hinner.front]
  · rintro ⟨hP, h⟩ front inner back hcs hinner
    rw [List.append_assoc] at hcs
    rcases List.append_eq_append_iff.mp hcs with ⟨gap, rfl, hgap⟩ | ⟨gap, rfl, hgap⟩
    · by_cases hne : gap = []
      · -- the run in front ends where the other one would have to start
        subst hne
        have hend := endsWithDigit_of_isDigit hrun.ne_nil hrun.isDigit
        have hfront := hinner.front
        rw [List.append_nil, hend] at hfront
        contradiction
      · have hfront := hinner.front
        rw [endsWithDigit_append run hne] at hfront
        exact h gap inner back (by rw [hgap, List.append_assoc])
          ⟨hinner.ne_nil, hinner.isDigit, hfront, hinner.back⟩
    · have hnil : front = [] := by
        by_contra hne
        have hend := endsWithDigit_of_isDigit hne fun c hc => hrun.isDigit c (by simp [hc])
        rw [hinner.front] at hend
        contradiction
      subst hnil
      rw [List.nil_append] at hrun hP
      have hsame := hinner.leadingDigits_append
      rw [hgap, hrun.leadingDigits_append] at hsame
      subst hsame
      rw [List.append_cancel_left hgap]
      exact hP

end EveryRun

end Augury.Text
