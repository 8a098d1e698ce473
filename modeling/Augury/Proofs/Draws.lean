import Augury.Random.Source

/-!
# The draws of a run

A run moves a source from one state to another and makes draws on its way.  `Draws` says which draws a
source makes between two states, and `Records` says that a recorded source has noted exactly those.
Both compose, so that the draws of a computation are read off those of its parts.
-/

set_option autoImplicit false

namespace Augury.Random

variable {σ : Type} [Source σ]

/-! ## Draws between two states -/

/-- The draws that a source makes, one after the other, on its way from one state to another. -/
inductive Draws : σ → List Draw → σ → Prop where
  | nil (s : σ) : Draws s [] s
  | cons (upper : UInt32) {s t : σ} {draws : List Draw}
      (hrest : Draws (Source.draw upper s).2 draws t) :
      Draws s ({ upper, value := (Source.draw upper s).1 } :: draws) t

theorem Draws.append {s t u : σ} {before after : List Draw} (hbefore : Draws s before t)
    (hafter : Draws t after u) : Draws s (before ++ after) u := by
  induction hbefore with
  | nil s => exact hafter
  | cons upper hrest ih => exact .cons upper (ih hafter)

/-- A lawful source answers within the range that is asked for. -/
theorem Draws.inRange [LawfulSource σ] {s t : σ} {draws : List Draw} (h : Draws s draws t)
    {d : Draw} (hd : d ∈ draws) (hupper : 1 ≤ d.upper) : 1 ≤ d.value ∧ d.value ≤ d.upper := by
  induction h with
  | nil s => simp at hd
  | @cons upper s t draws hrest ih =>
    rcases List.mem_cons.mp hd with rfl | hd
    · exact ⟨LawfulSource.one_le_draw upper s hupper, LawfulSource.draw_le upper s hupper⟩
    · exact ih hd

/-- From one state a source answers the same upper bounds in the same way. -/
theorem Draws.eq_of_map_upper {s t t' : σ} {draws draws' : List Draw} (h : Draws s draws t)
    (h' : Draws s draws' t') (huppers : draws.map Draw.upper = draws'.map Draw.upper) :
    draws = draws' := by
  induction h generalizing draws' with
  | nil s =>
    symm
    exact List.map_eq_nil_iff.mp huppers.symm
  | @cons upper s t draws hrest ih =>
    cases h' with
    | nil => cases huppers
    | cons upper' hrest' =>
      rw [List.map_cons, List.map_cons] at huppers
      obtain ⟨hupper, hmore⟩ := List.cons.inj huppers
      have hsame : upper = upper' := hupper
      subst hsame
      rw [ih hrest' hmore]

/-! ## Many draws of one upper bound -/

theorem drawInto_eq (upper : UInt32) (count : Nat) (drawn : Array UInt32) (s : σ) :
    drawInto upper count drawn s =
      (drawn ++ (drawMany upper count s).1, (drawMany upper count s).2) := by
  induction count generalizing drawn s with
  | zero => simp [drawInto, drawMany]
  | succ count ih =>
    simp only [drawInto, drawMany]
    rw [ih, ih (#[].push _)]
    simp

theorem drawMany_succ (upper : UInt32) (count : Nat) (s : σ) :
    drawMany upper (count + 1) s =
      ((Source.draw upper s).1 :: (drawMany upper count (Source.draw upper s).2).1,
        (drawMany upper count (Source.draw upper s).2).2) := by
  simp only [drawMany, drawInto]
  rw [drawInto_eq]
  simp [drawMany]

theorem length_drawMany (upper : UInt32) (count : Nat) (s : σ) :
    (drawMany upper count s).1.length = count := by
  induction count generalizing s with
  | zero => rfl
  | succ count ih => rw [drawMany_succ, List.length_cons, ih]

/-- Many draws of one upper bound all lie in its range. -/
theorem inRange_drawMany [LawfulSource σ] {upper : UInt32} (hupper : 1 ≤ upper) (count : Nat) (s : σ) :
    ∀ value ∈ (drawMany upper count s).1, 1 ≤ value ∧ value ≤ upper := by
  induction count generalizing s with
  | zero =>
    intro value hvalue
    exact absurd hvalue List.not_mem_nil
  | succ count ih =>
    rw [drawMany_succ, List.forall_mem_cons]
    exact ⟨⟨LawfulSource.one_le_draw upper s hupper, LawfulSource.draw_le upper s hupper⟩, ih _⟩

/-! ## Recorded draws -/

/-- Between two of its states a recorded source has made these draws and noted them. -/
structure Records (r : Recorded σ) (draws : List Draw) (last : Recorded σ) : Prop where
  made : Draws r.source draws last.source
  noted : last.draws.toList = r.draws.toList ++ draws

theorem Records.nil (r : Recorded σ) : Records r [] r where
  made := .nil r.source
  noted := (List.append_nil _).symm

theorem Records.append {r next last : Recorded σ} {before after : List Draw}
    (hbefore : Records r before next) (hafter : Records next after last) :
    Records r (before ++ after) last where
  made := hbefore.made.append hafter.made
  noted := by rw [hafter.noted, hbefore.noted, List.append_assoc]

/-- A record that starts empty holds the draws and nothing else. -/
theorem Records.toList_eq {s : σ} {draws : List Draw} {last : Recorded σ}
    (h : Records { source := s } draws last) : last.draws.toList = draws := by
  rw [h.noted]
  rfl

theorem records_draw (upper : UInt32) (r : Recorded σ) :
    Records r [{ upper, value := (Source.draw upper r).1 }] (Source.draw upper r).2 where
  made := .cons upper (.nil _)
  noted := Array.toList_push

theorem records_drawMany (upper : UInt32) (count : Nat) (r : Recorded σ) :
    Records r ((drawMany upper count r).1.map fun value => { upper, value })
      (drawMany upper count r).2 := by
  induction count generalizing r with
  | zero => exact .nil r
  | succ count ih =>
    rw [drawMany_succ]
    exact (records_draw upper r).append (ih _)

end Augury.Random
