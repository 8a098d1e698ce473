import Augury.Proofs.Readable

/-!
# Reading and spelling

The main statement here is `parse_eq_ok_iff`: a text is read as given nodes exactly when the nodes spell
it and are readable.  Both directions look at the front of the text.  The conditions of `Readable` speak
of neighbouring nodes while the rules of `Reads` speak of the characters that follow; `textFits_append_run`
and `diceFit_withText_iff` translate between the two.
-/

set_option autoImplicit false

namespace Augury.Prompt

open Text (IsRun EveryRun Oversized startsWithDigit endsWithDigit leadingDigits word?)

/-- Nodes behind a text; the empty text is no node. -/
def withText (v : List Char) (nodes : List Node) : List Node :=
  if v = [] then nodes else .text (String.ofList v) :: nodes

theorem cons_literal_withText {front : List Char} (hne : front ≠ []) (v : List Char)
    {nodes : List Node} (htext : ∀ w, ¬ [.text w] <+: nodes) :
    Node.cons (.literal front) (withText v nodes) = withText (front ++ v) nodes := by
  have happ : front ++ v ≠ [] := by simp [hne]
  unfold withText
  rw [if_neg happ]
  split
  · next hv =>
    rw [hv, List.append_nil]
    apply Node.cons_literal_of_ne
    rintro value rest rfl
    exact htext value (by simp [List.cons_prefix_cons])
  · rw [Node.cons_literal_text, String.ofList_append]

/-! ## What stands at the front of spelled texts -/

theorem Spelled.isPlain_eq_false {nodes : List Node} {c : Char} {cs : List Char}
    (h : Spelled nodes (c :: cs)) (htext : ∀ w, ¬ [.text w] <+: nodes) : isPlain c = false := by
  generalize hcs : c :: cs = text at h
  cases h with
  | nil => simp at hcs
  | @cons node fragment nodes rest hnode hrest =>
    cases hnode with
    | exact hdice =>
      cases node with
      | text w => exact absurd (by simp [List.cons_prefix_cons]) (htext w)
      | choice options =>
        have hc : c = '{' := by
          simp [Node.render] at hcs
          exact hcs.1
        rw [hc]
        rfl
      | table name =>
        have hc : c = '[' := by
          simp [Node.render] at hcs
          exact hcs.1
        rw [hc]
        rfl
      | dice d => exact absurd rfl (hdice d)
    | dice hdice =>
      have hstart := hdice.startsWithDigit_append rest
      rw [← hcs, Text.startsWithDigit_cons] at hstart
      simp [isPlain, hstart]

theorem Spelled.startsWithDigit_eq_false_iff {nodes : List Node} {cs : List Char}
    (h : Spelled nodes cs) (htext : ∀ w, ¬ [.text w] <+: nodes) :
    startsWithDigit cs = false ↔ ∀ d, ¬ [.dice d] <+: nodes := by
  cases h with
  | nil => simp
  | @cons node fragment nodes rest hnode hrest =>
    cases hnode with
    | exact hdice =>
      cases node with
      | text w => exact absurd (by simp [List.cons_prefix_cons]) (htext w)
      | choice options => simp [Node.render, List.cons_prefix_cons]
      | table name => simp [Node.render, List.cons_prefix_cons]
      | dice d => exact absurd rfl (hdice d)
    | @dice d numerals text hdice =>
      simp [hdice.startsWithDigit_append rest, List.cons_prefix_cons]

theorem Spelled.word?_leadingDigits_ne_none {nodes : List Node} {cs : List Char}
    (h : Spelled nodes cs) {d : Dice} (hd : [.dice d] <+: nodes) :
    word? (leadingDigits cs) ≠ none := by
  cases h with
  | nil => simp at hd
  | @cons node fragment nodes rest hnode hrest =>
    obtain rfl : Node.dice d = node := (List.cons_prefix_cons.mp hd).1
    cases hnode with
    | exact hdice => exact absurd rfl (hdice d)
    | dice hdice => simp [hdice.word?_leadingDigits rest]

/-- The digits at the front of a text and the nodes behind it are no word exactly when a run in front
of the text is too large, and dice do not come first.  No digits meet where the text ends. -/
theorem word?_leadingDigits_append_eq_none_iff {v cs front : List Char} {nodes : List Node}
    (hfront : endsWithDigit front = false) (hspelled : Spelled nodes cs)
    (htext : ∀ w, ¬ [.text w] <+: nodes)
    (hend : ∀ d, [.dice d] <+: nodes → endsWithDigit v = false) :
    word? (leadingDigits (v ++ cs)) = none ↔
      (∀ run back, v = run ++ back → IsRun front run back → Oversized run) ∧
        (v = [] → ∀ d, ¬ [.dice d] <+: nodes) := by
  by_cases hv : v = []
  · subst hv
    have hrun : ∀ run back, [] = run ++ back → IsRun front run back → Oversized run := by
      intro run back happ hrun
      exact absurd (List.append_eq_nil_iff.mp happ.symm).1 hrun.ne_nil
    simp only [List.nil_append, true_implies]
    constructor
    · intro hword
      exact ⟨hrun, fun d hd => hspelled.word?_leadingDigits_ne_none hd hword⟩
    · rintro ⟨-, hdice⟩
      have hstart := (hspelled.startsWithDigit_eq_false_iff htext).mpr hdice
      rw [Text.leadingDigits_eq_nil hstart, Text.word?_nil]
  · have hmeet : endsWithDigit v = true → startsWithDigit cs = false := by
      intro hdigit
      rw [hspelled.startsWithDigit_eq_false_iff htext]
      intro d hd
      rw [hend d hd] at hdigit
      contradiction
    rw [Text.leadingDigits_append hv hmeet, ← Text.forall_run_oversized_iff hfront]
    simp [hv]

/-! ## From neighbours to what follows -/

section Spelled

variable {v cs : List Char} {nodes : List Node}

theorem append_eq_cons_of_isPlain {x : Char} {tail : List Char} (hx : isPlain x = true)
    (hspelled : Spelled nodes cs) (htext : ∀ w, ¬ [.text w] <+: nodes)
    (h : v ++ cs = x :: tail) : ∃ rest, v = x :: rest ∧ tail = rest ++ cs := by
  cases v with
  | nil =>
    rw [List.nil_append] at h
    rw [h] at hspelled
    have hplain := hspelled.isPlain_eq_false htext
    rw [hx] at hplain
    contradiction
  | cons c v =>
    obtain ⟨rfl, rfl⟩ := List.cons.inj h
    exact ⟨v, rfl, rfl⟩

theorem endsWithDigit_tail {c : Char} {rest : List Char}
    (h : endsWithDigit (c :: rest) = false) : endsWithDigit rest = false := by
  by_cases hrest : rest = []
  · rw [hrest, Text.endsWithDigit_nil]
  · rwa [Text.endsWithDigit_cons c hrest] at h

/-- A run of digits in front of a text that dice may follow is no count of dice exactly when the text
does not make it one, nor the text together with the dice behind it. -/
theorem scanDice?_append_eq_none_iff {run : List Char} (hrun : ∀ c ∈ run, c.isDigit = true)
    (hne : run ≠ []) (hspelled : Spelled nodes cs) (htext : ∀ w, ¬ [.text w] <+: nodes)
    (hend : ∀ d, [.dice d] <+: nodes → endsWithDigit v = false) :
    scanDice? run (v ++ cs) = none ↔
      (∀ sides back, v = 'd' :: sides ++ back → IsRun ['d'] sides back →
        Oversized run ∨ Oversized sides) ∧
      ∀ d, [.dice d] <+: nodes → v = ['d'] → Oversized run := by
  have hd : isPlain 'd' = true := rfl
  rw [scanDice?_eq_none_iff]
  constructor
  · intro h
    constructor
    · rintro sides back rfl hsides
      rcases h (sides ++ back ++ cs) rfl with hcount | hword
      · exact .inl ((Text.word?_eq_none_iff hne hrun).mp hcount)
      · have hiff := word?_leadingDigits_append_eq_none_iff hsides.front hspelled htext
          fun d hdice => endsWithDigit_tail (hend d hdice)
        exact .inr ((hiff.mp hword).1 sides back rfl hsides)
    · rintro d hdice rfl
      rcases h cs rfl with hcount | hword
      · exact (Text.word?_eq_none_iff hne hrun).mp hcount
      · exact absurd hword (hspelled.word?_leadingDigits_ne_none hdice)
  · rintro ⟨hinside, hbehind⟩ tail htail
    obtain ⟨rest, rfl, rfl⟩ := append_eq_cons_of_isPlain hd hspelled htext htail
    by_cases hcount : word? run = none
    · exact .inl hcount
    · have hsize : ¬ Oversized run := fun hsize =>
        hcount ((Text.word?_eq_none_iff hne hrun).mpr hsize)
      have hfront : endsWithDigit ['d'] = false := rfl
      refine .inr ((word?_leadingDigits_append_eq_none_iff hfront hspelled htext
        fun d hdice => endsWithDigit_tail (hend d hdice)).mpr ⟨?_, ?_⟩)
      · rintro sides back rfl hsides
        exact (hinside sides back rfl hsides).resolve_left hsize
      · rintro rfl d hdice
        exact hsize (hbehind d hdice rfl)

/-- A text that dice may follow starts with no modifier exactly when it offers none of its own, nor
together with the dice behind it. -/
theorem scanModifier?_append_eq_none_iff (hspelled : Spelled nodes cs)
    (htext : ∀ w, ¬ [.text w] <+: nodes)
    (hend : ∀ d, [.dice d] <+: nodes → endsWithDigit v = false) :
    scanModifier? (v ++ cs) = none ↔
      OffersNoModifier v ∧
        ∀ (sign : Sign) (d : Dice), v = [sign.toChar] → ¬ [.dice d] <+: nodes := by
  rw [scanModifier?_eq_none_iff]
  constructor
  · intro h
    constructor
    · rintro sign run back rfl hrun
      have hiff := word?_leadingDigits_append_eq_none_iff hrun.front hspelled htext
        fun d hdice => endsWithDigit_tail (hend d hdice)
      exact (hiff.mp (h sign _ rfl)).1 run back rfl hrun
    · rintro sign d rfl hdice
      exact hspelled.word?_leadingDigits_ne_none hdice (h sign cs rfl)
  · rintro ⟨hoffer, hbehind⟩ sign tail htail
    obtain ⟨rest, rfl, rfl⟩ :=
      append_eq_cons_of_isPlain (isPlain_toChar sign) hspelled htext htail
    have hsign : endsWithDigit [sign.toChar] = false := sign.isDigit_toChar
    refine (word?_leadingDigits_append_eq_none_iff hsign hspelled htext
      fun d hdice => endsWithDigit_tail (hend d hdice)).mpr ⟨?_, ?_⟩
    · rintro run back rfl hrun
      exact hoffer sign run back rfl hrun
    · rintro rfl d hdice
      exact hbehind sign d rfl hdice

theorem textFits_cons {c : Char} (hc : isPlain c = true) :
    TextFits (c :: v) nodes ↔ TextFits v nodes := by
  have hdigit := (isPlain_eq_true_iff.mp hc).2
  have hend : endsWithDigit (c :: v) = endsWithDigit v := by
    by_cases hv : v = []
    · rw [hv, Text.endsWithDigit_singleton, hdigit, Text.endsWithDigit_nil]
    · exact Text.endsWithDigit_cons c hv
  have hbrace : '{' ≠ c := by
    rintro rfl
    contradiction
  have hbracket : '[' ≠ c := by
    rintro rfl
    contradiction
  constructor
  · rintro ⟨hopener, hhides, htext, hdice⟩
    refine ⟨by simpa [hbrace, hbracket] using hopener, (Text.everyRun_cons hdigit v).mp hhides, htext,
      fun d hd => ?_⟩
    obtain ⟨hlast, hruns⟩ := hdice d hd
    exact ⟨hend ▸ hlast, (Text.everyRun_cons hdigit v).mp hruns⟩
  · rintro ⟨hopener, hhides, htext, hdice⟩
    refine ⟨by simpa [hbrace, hbracket] using hopener, (Text.everyRun_cons hdigit v).mpr hhides,
      htext, fun d hd => ?_⟩
    obtain ⟨hlast, hruns⟩ := hdice d hd
    exact ⟨hend ▸ hlast, (Text.everyRun_cons hdigit v).mpr hruns⟩

/-- A run of digits in front of a text fits like the text when nothing that follows makes it a count of
dice. -/
theorem textFits_append_run {run : List Char} (hrun : IsRun [] run v) (hspelled : Spelled nodes cs)
    (hfit : TextFits v nodes) :
    TextFits (run ++ v) nodes ↔
      startsWithDigit (v ++ cs) = false ∧ scanDice? run (v ++ cs) = none := by
  have hend : ∀ d, [.dice d] <+: nodes → endsWithDigit v = false := fun d hd => (hfit.dice d hd).1
  rw [scanDice?_append_eq_none_iff hrun.isDigit hrun.ne_nil hspelled hfit.text hend]
  constructor
  · intro h
    obtain ⟨hinside, -⟩ := (Text.everyRun_append hrun).mp h.hides
    refine ⟨?_, hinside, fun d hd => ((Text.everyRun_append hrun).mp (h.dice d hd).2).1⟩
    by_cases hv : v = []
    · subst hv
      rw [List.nil_append, hspelled.startsWithDigit_eq_false_iff hfit.text]
      intro d hd
      have hlast := (h.dice d hd).1
      rw [List.append_nil, Text.endsWithDigit_of_isDigit hrun.ne_nil hrun.isDigit] at hlast
      contradiction
    · rw [Text.startsWithDigit_append hv, hrun.back]
  · rintro ⟨hstart, hinside, hbehind⟩
    have hopener : ∀ kind : Block, kind.opener ∉ run := fun kind hmem => by
      simpa using hrun.isDigit _ hmem
    refine ⟨?_, (Text.everyRun_append hrun).mpr ⟨hinside, hfit.hides⟩, hfit.text, fun d hd => ?_⟩
    · simp only [List.mem_append, not_or]
      exact ⟨⟨hopener .choice, hfit.opener.1⟩, hopener .table, hfit.opener.2⟩
    · obtain ⟨hlast, hruns⟩ := hfit.dice d hd
      refine ⟨?_, (Text.everyRun_append hrun).mpr ⟨hbehind d hd, hruns⟩⟩
      have hv : v ≠ [] := by
        rintro rfl
        exact (hspelled.startsWithDigit_eq_false_iff hfit.text).mp hstart d hd
      rw [Text.endsWithDigit_append run hv, hlast]

/-- Dice fit a text and the nodes behind it when nothing that follows extends them. -/
theorem diceFit_withText_iff {d : Dice} (hspelled : Spelled nodes cs) (hfit : TextFits v nodes) :
    DiceFit d (withText v nodes) ↔
      startsWithDigit (v ++ cs) = false ∧ (d.modifier = none → scanModifier? (v ++ cs) = none) := by
  have hend : ∀ e, [.dice e] <+: nodes → endsWithDigit v = false := fun e he => (hfit.dice e he).1
  rw [scanModifier?_append_eq_none_iff hspelled hfit.text hend]
  by_cases hv : v = []
  · subst hv
    rw [List.nil_append, hspelled.startsWithDigit_eq_false_iff hfit.text]
    constructor
    · intro h
      refine ⟨h.dice, fun _ => ⟨?_, ?_⟩⟩
      · intro sign run back hnil
        simp at hnil
      · intro sign e hnil
        simp at hnil
    · rintro ⟨hdice, -⟩
      refine ⟨hdice, fun w hw => absurd hw (hfit.text w), fun sign e _ he => ?_⟩
      have hfirst : [Node.text (String.singleton sign.toChar)] <+:
          [.text (String.singleton sign.toChar), .dice e] := by simp [List.cons_prefix_cons]
      exact hfit.text _ (hfirst.trans he)
  · have hnodes : withText v nodes = .text (String.ofList v) :: nodes := if_neg hv
    rw [hnodes, Text.startsWithDigit_append hv]
    constructor
    · intro h
      obtain ⟨hdigit, hoffer⟩ := h.text (String.ofList v) (by simp [List.cons_prefix_cons])
      rw [String.toList_ofList] at hdigit hoffer
      refine ⟨hdigit, fun hd => ⟨hoffer hd, ?_⟩⟩
      rintro sign e rfl he
      refine h.sign sign e hd (List.cons_prefix_cons.mpr ⟨?_, he⟩)
      rw [String.singleton_eq_ofList]
    · rintro ⟨hdigit, hmodifier⟩
      refine ⟨by simp [List.cons_prefix_cons], fun w hw => ?_, fun sign e hd he => ?_⟩
      · obtain rfl : w = String.ofList v := by simpa [List.cons_prefix_cons] using hw
        rw [String.toList_ofList]
        exact ⟨hdigit, fun hd => (hmodifier hd).1⟩
      · obtain ⟨hsign, he⟩ := List.cons_prefix_cons.mp he
        have hchars : v = [sign.toChar] := by
          have hlist := congrArg String.toList (Node.text.inj hsign)
          simpa using hlist.symm
        exact (hmodifier hd).2 sign e hchars he

/-- The literal text in front of readable nodes may be taken off. -/
theorem Readable.exists_withText (h : Readable nodes) (hspelled : Spelled nodes cs) :
    ∃ v rest tail, nodes = withText v rest ∧ cs = v ++ tail ∧ TextFits v rest ∧ Readable rest ∧
      Spelled rest tail := by
  by_cases htext : ∃ w, [.text w] <+: nodes
  · obtain ⟨w, rest, rfl⟩ := htext
    rw [List.singleton_append] at h hspelled
    obtain ⟨hw, hfit, hrest⟩ := readable_text_cons.mp h
    cases hspelled with
    | cons hnode htail =>
      cases hnode with
      | exact hdice =>
        refine ⟨w.toList, rest, _, ?_, rfl, hfit, hrest, htail⟩
        simp [withText, hw]
  · have hfit : TextFits [] nodes := by
      refine ⟨by simp, Text.everyRun_nil, fun w hw => htext ⟨w, hw⟩, fun d _ => ?_⟩
      exact ⟨rfl, Text.everyRun_nil⟩
    exact ⟨[], nodes, cs, rfl, rfl, hfit, h, hspelled⟩

theorem Readable.withText (h : Readable nodes) (hfit : TextFits v nodes) :
    Readable (withText v nodes) := by
  unfold Prompt.withText
  split
  · exact h
  · next hv =>
    refine readable_text_cons.mpr ⟨by simpa using hv, ?_, h⟩
    rwa [String.toList_ofList]

/-! ## The two directions -/

theorem Readable.cons_block (h : Readable nodes) {kind : Block} {body : List Char}
    (hbody : kind.closer ∉ body) : Readable (Node.cons (.block kind body) nodes) := by
  cases kind with
  | choice =>
    refine readable_choice_cons.mpr ⟨⟨?_, ?_⟩, h⟩
    · simp [splitOn_eq_splitOn]
    · intro option hoption
      obtain ⟨piece, hpiece, rfl⟩ := List.mem_map.mp hoption
      obtain ⟨hmark, hsubset⟩ := not_mem_and_subset_of_mem_splitOn hpiece
      rw [String.toList_ofList]
      exact ⟨hmark, fun hmem => hbody (hsubset hmem)⟩
  | table =>
    refine readable_table_cons.mpr ⟨?_, h⟩
    rw [String.toList_ofList]
    exact hbody

/-- The nodes that a text is read as spell it and are readable. -/
theorem spelled_and_readable_of_reads {stop : Option (Block × List Char)}
    (h : Reads cs nodes stop) (hstop : stop = none) : Spelled nodes cs ∧ Readable nodes := by
  induction h with
  | nil => exact ⟨.nil, readable_nil⟩
  | unclosed hbody => simp at hstop
  | @plain c cs nodes stop hc hrest ih =>
    obtain ⟨hspelled, hreadable⟩ := ih hstop
    refine ⟨hspelled.cons_literal [c], ?_⟩
    obtain ⟨v, rest, tail, rfl, rfl, hfit, hreadable, -⟩ := hreadable.exists_withText hspelled
    rw [cons_literal_withText (by simp) v hfit.text]
    exact hreadable.withText ((textFits_cons hc).mpr hfit)
  | @digits run cs nodes stop hrun hscan hrest ih =>
    obtain ⟨hspelled, hreadable⟩ := ih hstop
    refine ⟨hspelled.cons_literal run, ?_⟩
    obtain ⟨v, rest, tail, rfl, rfl, hfit, hreadable, htail⟩ := hreadable.exists_withText hspelled
    have hfront : IsRun [] run v := by
      refine ⟨hrun.ne_nil, hrun.isDigit, rfl, ?_⟩
      by_cases hv : v = []
      · rw [hv, Text.startsWithDigit_nil]
      · rw [← Text.startsWithDigit_append hv tail, hrun.back]
    rw [cons_literal_withText hrun.ne_nil v hfit.text]
    exact hreadable.withText ((textFits_append_run hfront htail hfit).mpr ⟨hrun.back, hscan⟩)
  | @dice d numerals text cs nodes stop hwritten hdigit hmodifier hrest ih =>
    obtain ⟨hspelled, hreadable⟩ := ih hstop
    refine ⟨.cons (.dice hwritten) hspelled, readable_dice_cons.mpr ⟨?_, hreadable⟩⟩
    obtain ⟨v, rest, tail, rfl, rfl, hfit, -, htail⟩ := hreadable.exists_withText hspelled
    exact (diceFit_withText_iff htail hfit).mpr ⟨hdigit, hmodifier⟩
  | @block kind body cs nodes stop hbody hrest ih =>
    obtain ⟨hspelled, hreadable⟩ := ih hstop
    refine ⟨?_, hreadable.cons_block hbody⟩
    obtain ⟨node, hdice, hrender, hcons⟩ := exists_node_of_block kind body
    have h := Spelled.cons (.exact hdice) hspelled
    rw [hrender] at h
    rw [hcons]
    simpa using h

theorem TextFits.of_append_run {run : List Char} (hrun : IsRun [] run v)
    (h : TextFits (run ++ v) nodes) : TextFits v nodes := by
  obtain ⟨hopener, hhides, htext, hdice⟩ := h
  simp only [List.mem_append, not_or] at hopener
  refine ⟨⟨hopener.1.2, hopener.2.2⟩, ((Text.everyRun_append hrun).mp hhides).2, htext,
    fun d hd => ?_⟩
  obtain ⟨hlast, hruns⟩ := hdice d hd
  refine ⟨?_, ((Text.everyRun_append hrun).mp hruns).2⟩
  by_cases hv : v = []
  · rw [hv, Text.endsWithDigit_nil]
  · rwa [Text.endsWithDigit_append run hv] at hlast

/-- A text that fits the nodes behind it is read as a text node in front of them. -/
theorem Reads.withText (hrest : Reads cs nodes none) (hspelled : Spelled nodes cs)
    (hfit : TextFits v nodes) : Reads (v ++ cs) (withText v nodes) none := by
  induction hlength : v.length using Nat.strongRecOn generalizing v with
  | ind length ih =>
    cases v with
    | nil => exact hrest
    | cons c v =>
      cases hdigit : c.isDigit with
      | true =>
        have hrun : IsRun [] (leadingDigits (c :: v)) (Text.afterDigits (c :: v)) :=
          Text.isRun_leadingDigits hdigit
        have hsplit := Text.leadingDigits_append_afterDigits (c :: v)
        rw [← hsplit] at hfit hlength ⊢
        generalize leadingDigits (c :: v) = run at *
        generalize Text.afterDigits (c :: v) = after at *
        have hafter := hfit.of_append_run hrun
        obtain ⟨hstart, hscan⟩ := (textFits_append_run hrun hspelled hafter).mp hfit
        have hshort : after.length < length := by
          have hpos := List.length_pos_iff.mpr hrun.ne_nil
          rw [List.length_append] at hlength
          omega
        have h := Reads.digits ⟨hrun.ne_nil, hrun.isDigit, rfl, hstart⟩ hscan
          (ih after.length hshort hafter rfl)
        rwa [cons_literal_withText hrun.ne_nil after hfit.text, ← List.append_assoc] at h
      | false =>
        have hc : isPlain c = true := by
          rw [isPlain_eq_true_iff]
          refine ⟨?_, hdigit⟩
          cases hopener : Block.ofOpener? c with
          | none => rfl
          | some kind =>
            have hmem := hfit.opener
            rw [← Block.opener_of_ofOpener? hopener] at hmem
            cases kind <;> simp [Block.opener] at hmem
        have hfit' := (textFits_cons hc).mp hfit
        have hshort : v.length < length := by
          rw [List.length_cons] at hlength
          omega
        have h := Reads.plain hc (ih v.length hshort hfit' rfl)
        rwa [cons_literal_withText (by simp) v hfit.text] at h

/-- Readable nodes are read from every text that they spell. -/
theorem reads_of_readable (hspelled : Spelled nodes cs) (hreadable : Readable nodes) :
    Reads cs nodes none := by
  induction hspelled with
  | nil => exact .nil
  | @cons node fragment nodes cs hnode hspelled ih =>
    have hrest := ih hreadable.tail
    cases hnode with
    | exact hdice =>
      cases node with
      | text w =>
        obtain ⟨hw, hfit, -⟩ := readable_text_cons.mp hreadable
        have h := hrest.withText hspelled hfit
        simpa [Prompt.withText, hw, Node.render] using h
      | choice options =>
        obtain ⟨⟨hne, hoptions⟩, -⟩ := readable_choice_cons.mp hreadable
        have hbody : Block.closer .choice ∉ ['|'].intercalate (options.map String.toList) := by
          intro hmem
          rcases mem_of_mem_intercalate hmem with hmark | ⟨piece, hpiece, hmem⟩
          · simp [Block.closer] at hmark
          · obtain ⟨option, hoption, rfl⟩ := List.mem_map.mp hpiece
            exact (hoptions option hoption).2 hmem
        have hpieces : ∀ piece ∈ options.map String.toList, '|' ∉ piece := by
          intro piece hpiece
          obtain ⟨option, hoption, rfl⟩ := List.mem_map.mp hpiece
          exact (hoptions option hoption).1
        have hcut := List.splitOn_intercalate '|' hpieces (by simpa using hne)
        have h := Reads.block hbody hrest
        simp only [Node.cons, splitOn_eq_splitOn, hcut, List.map_map] at h
        simpa [Node.render, Block.opener, Block.closer, Function.comp_def] using h
      | table name =>
        obtain ⟨hname, -⟩ := readable_table_cons.mp hreadable
        have hbody : Block.closer .table ∉ name.toList := hname
        have h := Reads.block hbody hrest
        simpa [Node.cons, Node.render, Block.opener, Block.closer] using h
      | dice d => exact absurd rfl (hdice d)
    | dice hdice =>
      obtain ⟨hfit, hnodes⟩ := readable_dice_cons.mp hreadable
      obtain ⟨v, rest, tail, rfl, rfl, hv, -, htail⟩ := hnodes.exists_withText hspelled
      obtain ⟨hdigit, hmodifier⟩ := (diceFit_withText_iff htail hv).mp hfit
      exact .dice hdice hdigit hmodifier hrest

/-- A text is read as given nodes exactly when these spell it and are readable. -/
theorem parse_eq_ok_iff {text : String} :
    parse text = .ok nodes ↔ Spelled nodes text.toList ∧ Readable nodes := by
  rw [parse_eq_ok_iff_reads]
  constructor
  · intro h
    exact spelled_and_readable_of_reads h rfl
  · rintro ⟨hspelled, hreadable⟩
    exact reads_of_readable hspelled hreadable

end Spelled

end Augury.Prompt
