import Augury.Proofs.Emission
import Augury.Proofs.ReadBack

/-!
# Prompts one after the other

What stands at the front of a text is read by what follows it: digits by a `d` and further digits, dice by
a sign.  Two texts are apart when the second does not start with a character of dice if the first ends with
one, so that no dice can reach from the one into the other (`Apart`).  The first is then read in front of
the second as it is read alone (`Reads.append`), and text nodes that meet become one (`joined`).

Texts that are apart can be read, and resolved, piece by piece (`parse_append_compositional`).
-/

set_option autoImplicit false

namespace Augury.Prompt

open Augury.Random (Recorded Script Source)
open Text (IsRun startsWithDigit endsWithDigit leadingDigits)

/-! ## Characters of dice -/

/-- Whether a character can be part of dice. -/
def isNotation (c : Char) : Bool :=
  c.isDigit || c = 'd' || (Sign.ofChar? c).isSome

/-- No dice go on in this text. -/
def StartsOutside (cs : List Char) : Prop :=
  ∀ c ∈ cs.head?, isNotation c = false

/-- No dice reach from the first text into the second one. -/
def Apart (cs ds : List Char) : Prop :=
  ∀ c ∈ cs.getLast?, isNotation c = true → StartsOutside ds

theorem isNotation_of_isDigit {c : Char} (hc : c.isDigit = true) : isNotation c = true := by
  simp [isNotation, hc]

theorem isNotation_toChar (sign : Sign) : isNotation sign.toChar = true := by
  cases sign <;> rfl

theorem isNotation_eq_false_iff {c : Char} :
    isNotation c = false ↔ c.isDigit = false ∧ c ≠ 'd' ∧ c ≠ '+' ∧ c ≠ '-' := by
  have hsign : (Sign.ofChar? c).isSome = false ↔ c ≠ '+' ∧ c ≠ '-' := by
    unfold Sign.ofChar?
    split <;> simp_all
  simp only [isNotation, Bool.or_eq_false_iff, decide_eq_false_iff_not, hsign, and_assoc]

section Apart

variable {front cs ds : List Char}

theorem StartsOutside.startsWithDigit_eq_false (h : StartsOutside ds) :
    startsWithDigit ds = false := by
  cases ds with
  | nil => rfl
  | cons c ds => exact (isNotation_eq_false_iff.mp (h c rfl)).1

theorem Apart.of_append (h : Apart (front ++ cs) ds) : Apart cs ds := by
  intro c hc
  apply h
  rw [List.getLast?_append, Option.mem_def.mp hc]
  rfl

theorem Apart.startsOutside (h : Apart cs ds) (hend : endsWithDigit cs = true) :
    StartsOutside ds := by
  unfold endsWithDigit at hend
  cases hlast : cs.getLast? with
  | none =>
    rw [hlast] at hend
    cases hend
  | some c =>
    rw [hlast] at hend
    exact h c hlast (isNotation_of_isDigit hend)

/-- The digits behind a character of dice do not go on in a text that is apart. -/
theorem leadingDigits_append_of_apart {c : Char} (hc : isNotation c = true)
    (h : Apart (c :: cs) ds) : leadingDigits (cs ++ ds) = leadingDigits cs := by
  by_cases hcs : cs = []
  · subst hcs
    have hstart : StartsOutside ds := h c rfl hc
    rw [List.nil_append, Text.leadingDigits_eq_nil hstart.startsWithDigit_eq_false,
      Text.leadingDigits_eq_nil rfl]
  · apply Text.leadingDigits_append hcs
    intro hend
    have happ : Apart ([c] ++ cs) ds := h
    exact (happ.of_append.startsOutside hend).startsWithDigit_eq_false

/-- No digit follows a text that no digit follows alone, if it stands behind a digit. -/
theorem startsWithDigit_append_of_apart (hfront : endsWithDigit front = true)
    (h : Apart (front ++ cs) ds) (hcs : startsWithDigit cs = false) :
    startsWithDigit (cs ++ ds) = false := by
  by_cases hnil : cs = []
  · subst hnil
    rw [List.append_nil] at h
    exact (h.startsOutside hfront).startsWithDigit_eq_false
  · rw [Text.startsWithDigit_append hnil, hcs]

theorem scanDice?_append_of_apart {run : List Char} (hrun : endsWithDigit run = true)
    (h : Apart (run ++ cs) ds) (hscan : scanDice? run cs = none) :
    scanDice? run (cs ++ ds) = none := by
  rw [scanDice?_eq_none_iff] at hscan ⊢
  intro tail htail
  cases cs with
  | nil =>
    rw [List.append_nil] at h
    rw [List.nil_append] at htail
    have hd : isNotation 'd' = false := by
      apply h.startsOutside hrun
      rw [htail]
      rfl
    cases hd
  | cons c cs =>
    rw [List.cons_append] at htail
    obtain ⟨rfl, rfl⟩ := List.cons.inj htail
    rw [leadingDigits_append_of_apart rfl h.of_append]
    exact hscan cs rfl

theorem scanModifier?_append_of_apart {text : List Char} (htext : endsWithDigit text = true)
    (h : Apart (text ++ cs) ds) (hscan : scanModifier? cs = none) :
    scanModifier? (cs ++ ds) = none := by
  rw [scanModifier?_eq_none_iff] at hscan ⊢
  intro sign tail htail
  cases cs with
  | nil =>
    rw [List.append_nil] at h
    rw [List.nil_append] at htail
    have hsign : isNotation sign.toChar = false := by
      apply h.startsOutside htext
      rw [htail]
      rfl
    rw [isNotation_toChar] at hsign
    cases hsign
  | cons c cs =>
    rw [List.cons_append] at htail
    obtain ⟨rfl, rfl⟩ := List.cons.inj htail
    rw [leadingDigits_append_of_apart (isNotation_toChar sign) h.of_append]
    exact hscan sign cs rfl

end Apart

/-! ## Nodes that meet -/

/-- A node in front of others; two text nodes that meet become one. -/
def Node.before : Node → List Node → List Node
  | .text v, .text w :: nodes => .text (v ++ w) :: nodes
  | node, nodes => node :: nodes

/-- Two lists of nodes one after the other; two text nodes that meet become one. -/
def joined : List Node → List Node → List Node
  | [], after => after
  | [node], after => node.before after
  | node :: next :: nodes, after => node :: joined (next :: nodes) after

theorem Node.before_of_ne_text {node : Node} (h : ∀ v, node ≠ .text v) (nodes : List Node) :
    node.before nodes = node :: nodes := by
  cases node with
  | text v => exact absurd rfl (h v)
  | choice options => rfl
  | table name => rfl
  | dice d => rfl

theorem joined_cons_of_ne_text {node : Node} (h : ∀ v, node ≠ .text v) (nodes after : List Node) :
    joined (node :: nodes) after = node :: joined nodes after := by
  cases nodes with
  | nil => exact Node.before_of_ne_text h after
  | cons next nodes => rfl

theorem joined_cons_literal (cs : List Char) (nodes after : List Node) :
    joined (Node.cons (.literal cs) nodes) after = Node.cons (.literal cs) (joined nodes after) := by
  cases nodes with
  | nil =>
    rcases after with _ | ⟨_ | _ | _ | _, after⟩ <;> rfl
  | cons node nodes =>
    by_cases htext : ∃ v, node = .text v
    · obtain ⟨v, rfl⟩ := htext
      rw [Node.cons_literal_text]
      cases nodes with
      | nil =>
        rcases after with _ | ⟨_ | _ | _ | _, after⟩ <;>
          simp [joined, Node.before, String.append_assoc]
      | cons next nodes => rfl
    · -- the literal text stays a node of its own, in front of the list as in front of the joined one
      have hnode : ∀ v, node ≠ .text v := fun v hv => htext ⟨v, hv⟩
      have hfront : ∀ rest, Node.cons (.literal cs) (node :: rest) =
          .text (String.ofList cs) :: node :: rest := by
        intro rest
        apply Node.cons_literal_of_ne
        intro value others heq
        exact hnode value (List.cons.inj heq).1
      rw [hfront, joined_cons_of_ne_text hnode, hfront]
      show Node.text _ :: joined (node :: nodes) after = _
      rw [joined_cons_of_ne_text hnode]

theorem joined_cons_block (kind : Block) (body : List Char) (nodes after : List Node) :
    joined (Node.cons (.block kind body) nodes) after =
      Node.cons (.block kind body) (joined nodes after) := by
  cases kind with
  | choice => exact joined_cons_of_ne_text (by simp) nodes after
  | table => exact joined_cons_of_ne_text (by simp) nodes after

/-- **What stands in front of a text that is apart is read as it is read alone.** -/
theorem Reads.append {cs ds : List Char} {before after : List Node}
    {first stop : Option (Block × List Char)} (h : Reads cs before first) (hfirst : first = none)
    (hapart : Apart cs ds) (hds : Reads ds after stop) :
    Reads (cs ++ ds) (joined before after) stop := by
  induction h with
  | nil => exact hds
  | unclosed hbody => cases hfirst
  | @plain c cs nodes first hc hrest ih =>
    have happ : Apart ([c] ++ cs) ds := hapart
    rw [joined_cons_literal]
    exact .plain hc (ih hfirst happ.of_append)
  | @digits run cs nodes first hrun hscan hrest ih =>
    have hend := Text.endsWithDigit_of_isDigit hrun.ne_nil hrun.isDigit
    have hback := startsWithDigit_append_of_apart hend hapart hrun.back
    rw [joined_cons_literal, List.append_assoc]
    exact .digits ⟨hrun.ne_nil, hrun.isDigit, rfl, hback⟩
      (scanDice?_append_of_apart hend hapart hscan) (ih hfirst hapart.of_append)
  | @dice d numerals text cs nodes first hwritten hdigit hmodifier hrest ih =>
    have hend := hwritten.endsWithDigit
    have hback := startsWithDigit_append_of_apart hend hapart hdigit
    rw [joined_cons_of_ne_text (by simp), List.append_assoc]
    refine .dice hwritten hback ?_ (ih hfirst hapart.of_append)
    intro hplain
    exact scanModifier?_append_of_apart hend hapart (hmodifier hplain)
  | @block kind body cs nodes first hbody hrest ih =>
    have happ : Apart ((kind.opener :: body ++ [kind.closer]) ++ cs) ds := by
      rwa [List.append_assoc, List.singleton_append]
    rw [joined_cons_block, List.append_assoc, List.cons_append]
    exact .block hbody (ih hfirst happ.of_append)

/-! ## Boundaries -/

/-- A boundary between two texts that no dice reach over: one of them is empty, the first ends with a
block, or the second starts with a character that is no part of dice. -/
def SafeBoundary (a : String) (before : List Node) (b : String) : Prop :=
  a = "" ∨ (∃ options, before.getLast? = some (.choice options)) ∨
    (∃ name, before.getLast? = some (.table name)) ∨ b = "" ∨
    ∃ c, b.toList.head? = some c ∧ c.isDigit = false ∧ c ≠ 'd' ∧ c ≠ '+' ∧ c ≠ '-'

/-- A text ends as its last node is rendered, unless that is dice. -/
theorem Spelled.getLast?_eq {nodes : List Node} {cs : List Char} {node : Node} {c : Char}
    (h : Spelled nodes cs) (hlast : nodes.getLast? = some node) (hnode : ∀ d, node ≠ .dice d)
    (hc : node.render.toList.getLast? = some c) : cs.getLast? = some c := by
  induction h with
  | nil => cases hlast
  | @cons head fragment nodes cs hhead hrest ih =>
    cases nodes with
    | nil =>
      cases hrest
      obtain rfl : head = node := Option.some.inj hlast
      rw [List.append_nil]
      cases hhead with
      | exact _ => exact hc
      | @dice d _ _ _ => exact absurd rfl (hnode d)
    | cons next nodes =>
      rw [List.getLast?_cons_cons] at hlast
      rw [List.getLast?_append, ih hlast]
      rfl

/-- No dice reach over the end of a text whose last node ends with a character outside of dice. -/
theorem Apart.of_getLast? {nodes : List Node} {cs ds : List Char} {node : Node} {c : Char}
    (h : Spelled nodes cs) (hlast : nodes.getLast? = some node) (hnode : ∀ d, node ≠ .dice d)
    (hc : node.render.toList.getLast? = some c) (houtside : isNotation c = false) :
    Apart cs ds := by
  intro x hx hnotation
  rw [h.getLast?_eq hlast hnode hc, Option.mem_some_iff] at hx
  rw [← hx, houtside] at hnotation
  cases hnotation

theorem apart_of_safeBoundary {a b : String} {before : List Node} (ha : parse a = .ok before)
    (hsafe : SafeBoundary a before b) : Apart a.toList b.toList := by
  have hspelled : Spelled before a.toList := (parse_eq_ok_iff.mp ha).1
  rcases hsafe with rfl | ⟨options, hlast⟩ | ⟨name, hlast⟩ | rfl | ⟨c, hc, houtside⟩
  · intro x hx
    cases hx
  · have hrender : (Node.choice options).render.toList.getLast? = some '\x7d' := by
      rw [Node.render, String.toList_append, List.getLast?_append]
      rfl
    exact .of_getLast? hspelled hlast (by simp) hrender rfl
  · have hrender : (Node.table name).render.toList.getLast? = some ']' := by
      rw [Node.render, String.toList_append, List.getLast?_append]
      rfl
    exact .of_getLast? hspelled hlast (by simp) hrender rfl
  · intro x hx hnotation y hy
    cases hy
  · intro x hx hnotation y hy
    rw [hc, Option.mem_some_iff] at hy
    rw [← hy]
    exact isNotation_eq_false_iff.mpr houtside

/-! ## Resolving piece by piece -/

section Resolution

variable {σ : Type} [Source σ] {tables : Tables} {expand : String → String → Plan}

theorem perform_planNodes_text (v : String) (nodes : List Node) :
    ((planNodes tables expand (.text v :: nodes)).perform : Resolving σ String) =
      (v ++ ·) <$> (planNodes tables expand nodes).perform := by
  have htext : ((Node.plan tables expand (.text v)).perform : Resolving σ String) = pure v :=
    Plan.perform_ofLeaf (.text v)
  rw [perform_planNodes_cons, htext, pure_bind, bind_pure_comp]

theorem perform_planNodes_before (node : Node) (nodes : List Node) :
    ((planNodes tables expand (node.before nodes)).perform : Resolving σ String) =
      (planNodes tables expand (node :: nodes)).perform := by
  fun_cases Node.before node nodes with
  | case1 v w nodes =>
    simp only [perform_planNodes_text, Functor.map_map, String.append_assoc]
  | case2 => rfl

/-- Joined nodes are resolved as the nodes that are joined, one list after the other. -/
theorem perform_planNodes_joined (before after : List Node) :
    ((planNodes tables expand (joined before after)).perform : Resolving σ String) = (do
      let first ← (planNodes tables expand before).perform
      let rest ← (planNodes tables expand after).perform
      pure (first ++ rest)) := by
  fun_induction joined before after with
  | case1 after =>
    simp only [perform_planNodes_nil, pure_bind, String.empty_append, bind_pure]
  | case2 node after =>
    rw [perform_planNodes_before, perform_planNodes_cons, perform_planNodes_cons,
      perform_planNodes_nil]
    simp only [bind_assoc, pure_bind, String.append_empty]
  | case3 node next nodes after ih =>
    rw [perform_planNodes_cons, ih, perform_planNodes_cons node]
    simp only [bind_assoc, pure_bind, String.append_assoc]

end Resolution

/-! ## Reading piece by piece -/

section Reading

variable {a b : String} {before after : List Node}

theorem parse_append_of_eq_ok (ha : parse a = .ok before) (hapart : Apart a.toList b.toList)
    (hb : parse b = .ok after) : parse (a ++ b) = .ok (joined before after) := by
  rw [parse_eq_ok_iff_reads] at ha hb ⊢
  rw [String.toList_append]
  exact ha.append rfl hapart hb

/-- A block that is never closed lies as much further behind as the text in front is long. -/
theorem parse_append_of_eq_error {unclosed : Unclosed} (ha : parse a = .ok before)
    (hapart : Apart a.toList b.toList) (hb : parse b = .error unclosed) :
    parse (a ++ b) = .error
      { block := unclosed.block
        span := { start := Text.byteLength a.toList + unclosed.span.start
                  stop := Text.byteLength a.toList + unclosed.span.stop } } := by
  rw [parse_eq_ok_iff_reads] at ha
  obtain ⟨nodes, rest, hreads, hstart, hstop⟩ := parse_eq_error_iff_reads.mp hb
  obtain ⟨front, hfront⟩ := hreads.suffix
  rw [parse_eq_error_iff_reads, String.toList_append]
  refine ⟨joined before nodes, rest, ha.append rfl hapart hreads, ?_, ?_⟩
  · show Text.byteLength a.toList + unclosed.span.start = _
    rw [hstart, Text.byteLength_append, ← hfront, Text.byteLength_append]
    omega
  · rw [hstop, Text.byteLength_append]

end Reading

/-- **Texts compose at safe boundaries.**  Behind a text that can be read, a second one is read as it is
read alone: its nodes follow those of the first, text that meets text is joined, and a block that is never
closed lies further behind by the length of the first.  When both can be read, resolving them in one is
resolving the first and then, unless that fails, the second from the state that the source is left in, with
the same draws. -/
theorem parse_append_compositional {σ : Type} [Source σ] {a b : String} {before : List Node}
    (ha : parse a = .ok before) (hsafe : SafeBoundary a before b) :
    (∀ after, parse b = .ok after →
      parse (a ++ b) = .ok (joined before after) ∧
      ∀ (tables : Tables) (limit : Nat),
        (resolve tables limit (a ++ b) : Resolving (Recorded σ) String) = (do
          let first ← resolve tables limit a
          let rest ← resolve tables limit b
          pure (first ++ rest))) ∧
    ∀ unclosed, parse b = .error unclosed →
      parse (a ++ b) = .error
        { block := unclosed.block
          span := { start := Text.byteLength a.toList + unclosed.span.start
                    stop := Text.byteLength a.toList + unclosed.span.stop } } := by
  have hapart := apart_of_safeBoundary ha hsafe
  constructor
  · intro after hb
    have hab := parse_append_of_eq_ok ha hapart hb
    refine ⟨hab, ?_⟩
    intro tables limit
    obtain ⟨expand, hplan⟩ := exists_plan_eq_planText tables limit
    simp only [resolve_eq_perform, hplan, planText_of_parse_eq_ok ha, planText_of_parse_eq_ok hb,
      planText_of_parse_eq_ok hab]
    exact perform_planNodes_joined before after
  · intro unclosed hb
    exact parse_append_of_eq_error ha hapart hb

/-- A digit at the end of the first text stays text in front of a space, and offsets count bytes. -/
theorem parse_append_compositional_space :
    let front : String := "\x7bdawn|dusk\x7d à 7"
    let nodes : List Node := [.choice ["dawn", "dusk"], .text " à 7"]
    parse front = .ok nodes ∧ SafeBoundary front nodes " of 2d6" ∧
      parse (front ++ " of 2d6") =
        .ok [.choice ["dawn", "dusk"], .text " à 7 of ", .dice { count := 2, sides := 6 }] ∧
      (resolve (some ∅) 0 (front ++ " of 2d6") : Resolving (Recorded Script) String) = (do
        let first ← resolve (some ∅) 0 front
        let rest ← resolve (some ∅) 0 " of 2d6"
        pure (first ++ rest)) ∧
      parse (front ++ " [") = .error { block := .table, span := { start := 17, stop := 18 } } := by
  intro front nodes
  have hfront : parse front = .ok nodes := by cbv
  have hafter : parse " of 2d6" = .ok [.text " of ", .dice { count := 2, sides := 6 }] := by cbv
  have hopen : parse " [" = .error { block := .table, span := { start := 1, stop := 2 } } := by cbv
  have hlength : Text.byteLength front.toList = 16 := by cbv
  have hsafe : ∀ b : String, b.toList.head? = some ' ' → SafeBoundary front nodes b := by
    intro b hb
    exact .inr (.inr (.inr (.inr ⟨' ', hb, by decide⟩)))
  obtain ⟨hread, -⟩ := parse_append_compositional (σ := Script) hfront (hsafe " of 2d6" rfl)
  obtain ⟨-, herror⟩ := parse_append_compositional (σ := Script) hfront (hsafe " [" rfl)
  obtain ⟨hparse, hresolve⟩ := hread _ hafter
  have hshifted := herror _ hopen
  rw [hlength] at hshifted
  exact ⟨hfront, hsafe _ rfl, hparse, hresolve ∅ 0, hshifted⟩

end Augury.Prompt
