import Augury.Proofs.Flattening

/-!
# What a resolution can come to

A source of random numbers decides which of the possible texts a resolution comes to.  `Possible` says
what a single leaf can turn into: a choice into any of its options, and dice into any total between the
one of the lowest faces and the one of the highest.

Every possible text of a leaf has draws of its own, all of them in range (`Possible.exists_emits`), and a
script answers with any draws in range one after the other (`draws_script`).  So the leaves of a text turn
into their possible texts independently of each other, and a resolution can come to every combination of
these and to nothing else (`exists_lawful_eq_ok_iff_possible`).
-/

set_option autoImplicit false

namespace Augury

open Augury.Random (Draw Draws LawfulSource Script Source)

/-! ## Sums of faces -/

namespace Dice

theorem sum_cons (die : UInt32) (shown : List UInt32) :
    sum (die :: shown) = (die.toNat : Int) + sum shown := rfl

/-- Dice add up to no less than their number and to no more than what they show at most. -/
theorem sum_bounds {sides : UInt32} {shown : List UInt32}
    (h : ∀ die ∈ shown, 1 ≤ die ∧ die ≤ sides) :
    (shown.length : Int) ≤ sum shown ∧ sum shown ≤ shown.length * sides.toNat := by
  induction shown with
  | nil => simp [sum]
  | cons die shown ih =>
    obtain ⟨hfirst, hlast⟩ := h die List.mem_cons_self
    obtain ⟨hleast, hmost⟩ := ih fun other hother => h other (List.mem_cons_of_mem die hother)
    rw [UInt32.le_iff_toNat_le, UInt32.toNat_one] at hfirst
    rw [UInt32.le_iff_toNat_le] at hlast
    have hproduct : ((die :: shown).length : Int) * sides.toNat =
        sides.toNat + shown.length * sides.toNat := by
      rw [List.length_cons]
      push_cast
      ring
    rw [hproduct, sum_cons, List.length_cons]
    push_cast
    omega

/-- Every sum between the lowest and the highest is one of faces.  The first die shows as much as the
others can do without. -/
theorem exists_shown_of_sum {sides : UInt32} (hsides : 1 ≤ sides) {count total : Nat}
    (hleast : count ≤ total) (hmost : total ≤ count * sides.toNat) :
    ∃ shown : List UInt32, shown.length = count ∧ (∀ die ∈ shown, 1 ≤ die ∧ die ≤ sides) ∧
      sum shown = total := by
  rw [UInt32.le_iff_toNat_le, UInt32.toNat_one] at hsides
  induction count generalizing total with
  | zero =>
    obtain rfl : total = 0 := by omega
    exact ⟨[], rfl, by simp, rfl⟩
  | succ count ih =>
    have hproduct : (count + 1) * sides.toNat = count * sides.toNat + sides.toNat := Nat.succ_mul ..
    have hcount : count ≤ count * sides.toNat := Nat.le_mul_of_pos_right count hsides
    let face := min sides.toNat (total - count)
    have hface : (UInt32.ofNat face).toNat = face := by
      have hword := sides.toNat_lt
      apply UInt32.toNat_ofNat_of_lt'
      show face < 2 ^ 32
      omega
    obtain ⟨shown, hlength, hrange, hsum⟩ :=
      ih (show count ≤ total - face by omega) (show total - face ≤ count * sides.toNat by omega)
    refine ⟨UInt32.ofNat face :: shown, ?_, ?_, ?_⟩
    · rw [List.length_cons, hlength]
    · rw [List.forall_mem_cons]
      refine ⟨⟨?_, ?_⟩, hrange⟩
      · rw [UInt32.le_iff_toNat_le, UInt32.toNat_one, hface]
        omega
      · rw [UInt32.le_iff_toNat_le, hface]
        omega
    · rw [sum_cons, hface, hsum]
      omega

end Dice

/-! ## Scripts of draws -/

namespace Random

/-- A draw answers a number from one up to its upper bound. -/
def Draw.InRange (d : Draw) : Prop :=
  1 ≤ d.value ∧ d.value ≤ d.upper

/-- The script that has answered the first values and is about to answer the others. -/
def Script.amid (past future : List UInt32) : Script where
  values := (past ++ future).toArray
  position := past.length

theorem current_amid (past : List UInt32) (value : UInt32) (future : List UInt32) :
    (Script.amid past (value :: future)).current = value := by
  have hlt : past.length < (past ++ value :: future).length := by
    rw [List.length_append, List.length_cons]
    omega
  unfold Script.current Script.amid
  rw [List.size_toArray, Nat.mod_eq_of_lt hlt, List.getElem?_toArray,
    List.getElem?_append_right (Nat.le_refl _), Nat.sub_self, List.getElem?_cons_zero,
    Option.getD_some]

theorem draw_amid {d : Draw} (h : d.InRange) (past future : List UInt32) :
    Source.draw d.upper (Script.amid past (d.value :: future)) =
      (d.value, Script.amid (past ++ [d.value]) future) := by
  obtain ⟨hfirst, hlast⟩ := h
  have hsub : (d.value - 1).toNat = d.value.toNat - 1 := UInt32.toNat_sub_of_le _ _ hfirst
  rw [UInt32.le_iff_toNat_le, UInt32.toNat_one] at hfirst
  rw [UInt32.le_iff_toNat_le] at hlast
  have hvalue : (d.value - 1) % d.upper + 1 = d.value := by
    have hword := d.value.toNat_lt
    rw [← UInt32.toNat_inj, UInt32.toNat_add, UInt32.toNat_mod, hsub, UInt32.toNat_one,
      Nat.mod_eq_of_lt (show d.value.toNat - 1 < d.upper.toNat by omega)]
    omega
  show (((Script.amid past (d.value :: future)).current - 1) % d.upper + 1, _) = _
  rw [current_amid, hvalue]
  simp [Script.amid]

/-- A script answers with any draws in range, one after the other. -/
theorem draws_script {draws : List Draw} (h : ∀ d ∈ draws, d.InRange) (past : List UInt32) :
    ∃ last, Draws (Script.amid past (draws.map Draw.value)) draws last := by
  induction draws generalizing past with
  | nil => exact ⟨_, .nil _⟩
  | cons d draws ih =>
    have hdraw := draw_amid (h d List.mem_cons_self) past (draws.map Draw.value)
    obtain ⟨last, hdraws⟩ :=
      ih (fun other hother => h other (List.mem_cons_of_mem d hother)) (past ++ [d.value])
    refine ⟨last, ?_⟩
    have hcons : Draws (Script.amid past (d.value :: draws.map Draw.value))
        ({ upper := d.upper, value := (Source.draw d.upper
          (Script.amid past (d.value :: draws.map Draw.value))).1 } :: draws) last := by
      apply Draws.cons
      rw [hdraw]
      exact hdraws
    rwa [hdraw] at hcons

end Random

namespace Prompt

/-! ## Possible texts of leaves -/

/-- The texts that a leaf can turn into. -/
inductive Possible : Node → String → Prop where
  | text (value : String) : Possible (.text value) value
  | table (name : String) : Possible (.table name) ("[" ++ name ++ "]")
  | choice {options : List String} {option : String} (hoption : option ∈ options) :
      Possible (.choice options) (String.ofList (Text.trim option.toList))
  | dice {d : Dice} {sum : Int} (hleast : d.count.toNat ≤ sum)
      (hmost : sum ≤ d.count.toNat * d.sides.toNat) : Possible (.dice d) (d.total sum).repr

variable {leaf : Node} {leaves : List Node} {draws : List Draw} {text : String}

/-- With draws in range a leaf turns into one of its possible texts. -/
theorem Emits.possible (h : Emits leaf draws text) (hrange : ∀ d ∈ draws, d.InRange) :
    Possible leaf text := by
  cases h with
  | text => exact .text _
  | table name => exact .table name
  | choice hupper hfirst hoption => exact .choice (List.mem_of_getElem? hoption)
  | @dice d shown hcount =>
    have hfaces : ∀ die ∈ shown, 1 ≤ die ∧ die ≤ d.sides := by
      intro die hdie
      exact hrange _ (List.mem_map_of_mem hdie)
    obtain ⟨hleast, hmost⟩ := Dice.sum_bounds hfaces
    rw [hcount] at hleast hmost
    exact .dice hleast hmost

/-- Every possible text of an accepted leaf is what some draws in range turn it into. -/
theorem Possible.exists_emits (h : Possible leaf text) (haccepted : leaf.refusal? = none) :
    ∃ draws, Emits leaf draws text ∧ ∀ d ∈ draws, d.InRange := by
  cases h with
  | text => exact ⟨[], .text _, by simp⟩
  | table name => exact ⟨[], .table name, by simp⟩
  | @choice options option hoption =>
    obtain ⟨i, hi, rfl⟩ := List.getElem_of_mem hoption
    obtain ⟨-, hlt⟩ := length_of_refusal?_choice haccepted
    have hupper := toNat_length_of_refusal?_choice haccepted
    have hvalue : (UInt32.ofNat (i + 1)).toNat = i + 1 := by
      apply UInt32.toNat_ofNat_of_lt'
      omega
    have hfirst : 1 ≤ UInt32.ofNat (i + 1) := by
      rw [UInt32.le_iff_toNat_le, UInt32.toNat_one, hvalue]
      omega
    have hlast : UInt32.ofNat (i + 1) ≤ UInt32.ofNat options.length := by
      rw [UInt32.le_iff_toNat_le, hupper, hvalue]
      omega
    have hpicked : options[(UInt32.ofNat (i + 1)).toNat - 1]? = some options[i] := by
      rw [hvalue, Nat.add_sub_cancel]
      exact List.getElem?_eq_getElem hi
    refine ⟨[{ upper := UInt32.ofNat options.length, value := UInt32.ofNat (i + 1) }],
      .choice hupper hfirst hpicked, ?_⟩
    intro d hd
    rw [List.mem_singleton.mp hd]
    exact ⟨hfirst, hlast⟩
  | @dice d sum hleast hmost =>
    obtain ⟨total, rfl⟩ : ∃ total : Nat, sum = total := Int.eq_ofNat_of_zero_le (by omega)
    obtain ⟨-, -, hsides⟩ := d.refusal?_eq_none_iff.mp (Option.map_eq_none_iff.mp haccepted)
    obtain ⟨shown, hcount, hfaces, hsum⟩ :=
      Dice.exists_shown_of_sum hsides (by exact_mod_cast hleast) (by exact_mod_cast hmost)
    refine ⟨shown.map fun value => { upper := d.sides, value }, ?_, ?_⟩
    · rw [← hsum]
      exact .dice hcount
    · intro draw hdraw
      obtain ⟨die, hdie, rfl⟩ := List.mem_map.mp hdraw
      exact hfaces die hdie

/-! ## Leaves one after the other -/

theorem EmitsAll.exists_possible (h : EmitsAll leaves draws text)
    (hrange : ∀ d ∈ draws, d.InRange) :
    ∃ pieces, List.Forall₂ Possible leaves pieces ∧ text = String.join pieces := by
  induction h with
  | nil => exact ⟨[], .nil, rfl⟩
  | @cons leaf leaves draws more text rest hleaf hleaves ih =>
    rw [List.forall_mem_append] at hrange
    obtain ⟨pieces, hpieces, rfl⟩ := ih hrange.2
    exact ⟨text :: pieces, .cons (hleaf.possible hrange.1) hpieces, (String.join_cons ..).symm⟩

/-- Leaves turn into any of their possible texts, whatever the others turn into. -/
theorem exists_emitsAll_of_possible {pieces : List String}
    (h : List.Forall₂ Possible leaves pieces) (haccepted : ∀ leaf ∈ leaves, leaf.refusal? = none) :
    ∃ draws, EmitsAll leaves draws (String.join pieces) ∧ ∀ d ∈ draws, d.InRange := by
  induction h with
  | nil => exact ⟨[], .nil, by simp⟩
  | @cons leaf piece leaves pieces hleaf hleaves ih =>
    rw [List.forall_mem_cons] at haccepted
    obtain ⟨draws, hemits, hrange⟩ := hleaf.exists_emits haccepted.1
    obtain ⟨more, hmore, hrange'⟩ := ih haccepted.2
    refine ⟨draws ++ more, ?_, List.forall_mem_append.mpr ⟨hrange, hrange'⟩⟩
    rw [String.join_cons]
    exact .cons hemits hmore

/-- The draws of a leaf settle the text that it turns into. -/
theorem Emits.text_unique {other : String} (h : Emits leaf draws text)
    (h' : Emits leaf draws other) : text = other := by
  cases h with
  | text value =>
    cases h'
    rfl
  | table name =>
    cases h'
    rfl
  | choice hupper hfirst hoption =>
    cases h' with
    | choice _ _ hoption' =>
      rw [hoption] at hoption'
      rw [Option.some.inj hoption']
  | @dice d shown hcount =>
    generalize hdraws : (shown.map fun value => ({ upper := d.sides, value } : Draw)) = draws at h'
    cases h' with
    | @dice _ shown' hcount' =>
      have hvalues := congrArg (List.map Draw.value) hdraws
      simp only [List.map_map, Function.comp_def, List.map_id'] at hvalues
      rw [hvalues]

theorem EmitsAll.text_unique {draws' : List Draw} {other : String} (h : EmitsAll leaves draws text)
    (h' : EmitsAll leaves draws' other) (hdraws : draws = draws') : text = other := by
  induction h generalizing draws' other with
  | nil =>
    cases h'
    rfl
  | @cons leaf leaves draws more text rest hleaf hleaves ih =>
    cases h' with
    | @cons _ _ front back text' rest' hleaf' hleaves' =>
      -- both begin with as many draws as the leaf has upper bounds
      have hlength : draws.length = front.length := by
        rw [← List.length_map Draw.upper, hleaf.map_upper, ← hleaf'.map_upper, List.length_map]
      obtain ⟨rfl, rfl⟩ := List.append_inj hdraws hlength
      rw [hleaf.text_unique hleaf', ih hleaves' rfl]

/-! ## Sources in range -/

/-- The draws that a lawful source makes for accepted leaves are in range. -/
theorem EmitsAll.inRange {σ : Type} [Source σ] [LawfulSource σ] {s t : σ}
    (h : EmitsAll leaves draws text) (haccepted : ∀ leaf ∈ leaves, leaf.refusal? = none)
    (hdraws : Draws s draws t) : ∀ d ∈ draws, d.InRange := by
  intro d hd
  have hbound : d.upper ∈ leaves.flatMap Node.bounds := by
    rw [← h.map_upper]
    exact List.mem_map_of_mem hd
  obtain ⟨leaf, hleaf, hupper⟩ := List.mem_flatMap.mp hbound
  exact hdraws.inRange hd (one_le_of_mem_bounds (haccepted leaf hleaf) hupper)

variable {σ : Type} [Source σ] {tables : Tables} {limit : Nat}

/-- A plan without an error comes to the possible texts of its leaves, each of them from some lawful
source. -/
theorem exists_lawful_iff_of_plan (hplan : (plan tables limit text).error = none) (result : String) :
    (∃ (τ : Type) (_ : Source τ) (_ : LawfulSource τ) (t : τ),
        (resolveRecorded tables limit text t).1 = .ok result) ↔
      ∃ pieces, List.Forall₂ Possible (plan tables limit text).leaves pieces ∧
        result = String.join pieces := by
  have haccepted := accepted_planWithin tables limit limit text
  constructor
  · rintro ⟨τ, _, _, t, hrun⟩
    rcases hlast : resolveRecorded tables limit text t with ⟨outcome, last⟩
    obtain rfl : outcome = .ok result := by rw [← hrun, hlast]
    obtain ⟨emitted, hemits, hdraws, houtcome⟩ :=
      exists_emitsAll_of_resolveRecorded tables limit text t hlast
    rw [Plan.outcome_of_error_eq_none hplan] at houtcome
    obtain rfl := Except.ok.inj houtcome
    exact hemits.exists_possible (hemits.inRange haccepted hdraws)
  · rintro ⟨pieces, hpieces, rfl⟩
    obtain ⟨draws, hemits, hrange⟩ := exists_emitsAll_of_possible hpieces haccepted
    obtain ⟨last, hscript⟩ := Random.draws_script hrange []
    refine ⟨Script, inferInstance, inferInstance, .amid [] (draws.map Draw.value), ?_⟩
    rcases hlast : resolveRecorded tables limit text (Script.amid [] (draws.map Draw.value)) with
      ⟨outcome, stop⟩
    obtain ⟨emitted, hemits', hdraws, rfl⟩ :=
      exists_emitsAll_of_resolveRecorded tables limit text _ hlast
    -- the script is asked for the same upper bounds, so that it answers as it was written to
    have huppers : stop.draws.toList.map Draw.upper = draws.map Draw.upper := by
      rw [hemits'.map_upper, hemits.map_upper]
    have hsame : stop.draws.toList = draws := hdraws.eq_of_map_upper hscript huppers
    rw [Plan.outcome_of_error_eq_none hplan, hemits'.text_unique hemits hsame]

/-- **Exactly what a resolution can come to.**  Where a text can be resolved, the leaves to which its nodes
flatten settle its results: a text is the result with some lawful source exactly when it is put together
from one possible text for each leaf, chosen for every leaf on its own. -/
theorem exists_lawful_eq_ok_iff_possible {s : σ} {first : String}
    (h : (resolveRecorded tables limit text s).1 = .ok first) :
    ∃ nodes leaves, parse text = .ok nodes ∧ Flattens tables nodes leaves ∧
      (∀ others, Flattens tables nodes others → others = leaves) ∧
      ∀ result, (∃ (τ : Type) (_ : Source τ) (_ : LawfulSource τ) (t : τ),
          (resolveRecorded tables limit text t).1 = .ok result) ↔
        ∃ pieces, List.Forall₂ Possible leaves pieces ∧ result = String.join pieces := by
  have hplan : (plan tables limit text).error = none :=
    exists_resolveRecorded_eq_ok_iff.mp ⟨first, h⟩
  obtain ⟨nodes, hparse, hflattens⟩ := exists_flattens_of_planWithin hplan
  refine ⟨nodes, _, hparse, hflattens, ?_, exists_lawful_iff_of_plan hplan⟩
  intro others hothers
  exact hothers.unique hflattens

/-- Two references to one table are chosen for on their own, and the highest total can be reached. -/
theorem exists_lawful_eq_ok_iff_possible_twice :
    let tables := Tables.ofList [("x", "\x7ba|b\x7d")]
    (resolveRecorded tables 1 "[x][x]2d6-1" ({ values := #[1] } : Script)).1 = .ok "aa1" ∧
      ∃ (τ : Type) (_ : Source τ) (_ : LawfulSource τ) (t : τ),
        (resolveRecorded tables 1 "[x][x]2d6-1" t).1 = .ok "ab11" := by
  intro tables
  let dice : Dice := { count := 2, sides := 6, modifier := some { sign := .minus, value := 1 } }
  have hlowest : (resolveRecorded tables 1 "[x][x]2d6-1" ({ values := #[1] } : Script)).1 =
      .ok "aa1" := by cbv
  have htext : parse "[x][x]2d6-1" = .ok [.table "x", .table "x", .dice dice] := by cbv
  have hbody : parse "\x7ba|b\x7d" = .ok [.choice ["a", "b"]] := by cbv
  have hx : tables["x"]? = some "\x7ba|b\x7d" := by cbv
  obtain ⟨nodes, leaves, hparse, -, hunique, hresults⟩ := exists_lawful_eq_ok_iff_possible hlowest
  obtain rfl := Except.ok.inj (htext.symm.trans hparse)
  have hchoice : Flattens tables [.choice ["a", "b"]] [.choice ["a", "b"]] :=
    .leaf (fun name h => Node.noConfusion h) .nil
  have hdice : Flattens tables [.dice dice] [.dice dice] :=
    .leaf (fun name h => Node.noConfusion h) .nil
  have hleaves := hunique _ (.table hx hbody hchoice (.table hx hbody hchoice hdice))
  refine ⟨hlowest, (hresults "ab11").mpr ⟨["a", "b", "11"], ?_, rfl⟩⟩
  rw [← hleaves]
  have ha : Possible (.choice ["a", "b"]) "a" := @Possible.choice ["a", "b"] "a" (by simp)
  have hb : Possible (.choice ["a", "b"]) "b" := @Possible.choice ["a", "b"] "b" (by simp)
  have htotal : Possible (.dice dice) "11" := @Possible.dice dice 12 (by decide) (by decide)
  exact .cons ha (.cons hb (.cons htotal .nil))

end Prompt

end Augury
