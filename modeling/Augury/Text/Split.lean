/-!
# Cutting a text at marks

`breakAt?` cuts a text around the first character that satisfies a test, and `splitOn` cuts it at
every occurrence of one separator.  Both drop the marks themselves: joining the pieces with the
marks gives the text back.
-/

set_option autoImplicit false

namespace Augury.Text

/-- The text before the first character that `mark` accepts, that character, and the text after it;
nothing when `mark` accepts no character. -/
def breakAt? (mark : Char → Bool) (cs : List Char) : Option (List Char × Char × List Char) :=
  match cs.dropWhile (fun c => !mark c) with
  | [] => none
  | c :: rest => some (cs.takeWhile (fun c => !mark c), c, rest)

/-- The pieces between the separators: one more than there are separators, empty ones included. -/
def splitOn (separator : Char) : List Char → List (List Char)
  | [] => [[]]
  | c :: cs =>
    if c = separator then [] :: splitOn separator cs
    else (splitOn separator cs).modifyHead (c :: ·)

theorem breakAt?_cons (mark : Char → Bool) (c : Char) (cs : List Char) :
    breakAt? mark (c :: cs) =
      if mark c then some ([], c, cs)
      else (breakAt? mark cs).map fun cut => (c :: cut.1, cut.2) := by
  unfold breakAt?
  cases hc : mark c with
  | true => simp [hc]
  | false =>
    simp only [List.dropWhile_cons, List.takeWhile_cons, hc, Bool.not_false, ↓reduceIte,
      Bool.false_eq_true]
    split <;> rfl

/-- A cut is the one at the first mark: the parts make up the text, the character between them is a
mark, and none in front of it is. -/
theorem breakAt?_eq_some_iff {mark : Char → Bool} {cs front rest : List Char} {c : Char} :
    breakAt? mark cs = some (front, c, rest) ↔
      cs = front ++ c :: rest ∧ mark c = true ∧ ∀ x ∈ front, mark x = false := by
  induction cs generalizing front with
  | nil => simp [breakAt?]
  | cons x xs ih =>
    rw [breakAt?_cons]
    cases hx : mark x with
    | true =>
      cases front with
      | nil =>
        simp only [↓reduceIte, Option.some.injEq, Prod.mk.injEq, true_and, List.nil_append,
          List.cons.injEq, List.not_mem_nil, false_implies, implies_true, and_true]
        constructor
        · rintro ⟨rfl, rfl⟩; exact ⟨⟨rfl, rfl⟩, hx⟩
        · rintro ⟨⟨rfl, rfl⟩, -⟩; exact ⟨rfl, rfl⟩
      | cons y front =>
        simp only [↓reduceIte, Option.some.injEq, Prod.mk.injEq, List.nil_eq, reduceCtorEq,
          false_and, List.cons_append, List.cons.injEq, List.mem_cons, forall_eq_or_imp, false_iff,
          not_and]
        rintro ⟨rfl, -⟩ - hy
        rw [hx] at hy
        contradiction
    | false =>
      cases front with
      | nil =>
        simp only [Bool.false_eq_true, ↓reduceIte, Option.map_eq_some_iff, Prod.mk.injEq,
          reduceCtorEq, false_and, and_false, exists_false, List.nil_append, List.cons.injEq,
          List.not_mem_nil, false_implies, implies_true, and_true, false_iff, not_and]
        rintro ⟨rfl, -⟩ hc
        rw [hx] at hc
        contradiction
      | cons y front =>
        simp only [Bool.false_eq_true, ↓reduceIte, Option.map_eq_some_iff, Prod.mk.injEq,
          List.cons.injEq, List.cons_append, List.mem_cons, forall_eq_or_imp]
        constructor
        · rintro ⟨⟨front', mid⟩, h, ⟨rfl, rfl⟩, rfl⟩
          obtain ⟨hxs, hc, hfront⟩ := ih.mp h
          exact ⟨⟨rfl, hxs⟩, hc, hx, hfront⟩
        · rintro ⟨⟨rfl, hxs⟩, hc, -, hfront⟩
          exact ⟨(front, c, rest), ih.mpr ⟨hxs, hc, hfront⟩, ⟨rfl, rfl⟩, rfl⟩

theorem breakAt?_eq_none_iff {mark : Char → Bool} {cs : List Char} :
    breakAt? mark cs = none ↔ ∀ x ∈ cs, mark x = false := by
  induction cs with
  | nil => simp [breakAt?]
  | cons x xs ih =>
    rw [breakAt?_cons]
    cases hx : mark x with
    | true => simp [hx]
    | false => simp [hx, ih]

end Augury.Text
