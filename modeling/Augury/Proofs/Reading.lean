import Augury.Prompt.Parsing
import Augury.Proofs.DiceNotation

/-!
# How a prompt is read

`Reads` describes the nodes of a text by one rule for each thing that can stand at the front of a
text: a plain character, a run of digits that is no count of dice, dice, a block, and a block that is
never closed.  Reading a prompt finds the nodes that these rules allow and no others (`reads_iff`,
`parse_eq_ok_iff_reads`).
-/

set_option autoImplicit false

namespace Augury.Prompt

open Text (IsRun startsWithDigit leadingDigits afterDigits)

/-- The nodes of a text, up to its end or to a block that is never closed; in the latter case also the
kind of the block and the text from its opening character on. -/
inductive Reads : List Char → List Node → Option (Block × List Char) → Prop where
  | nil : Reads [] [] none
  | unclosed {kind : Block} {cs : List Char} (hbody : kind.closer ∉ cs) :
      Reads (kind.opener :: cs) [] (some (kind, kind.opener :: cs))
  | plain {c : Char} {cs : List Char} {nodes : List Node} {stop : Option (Block × List Char)}
      (hc : isPlain c = true) (hrest : Reads cs nodes stop) :
      Reads (c :: cs) (Node.cons (.literal [c]) nodes) stop
  | digits {run cs : List Char} {nodes : List Node} {stop : Option (Block × List Char)}
      (hrun : IsRun [] run cs) (hscan : scanDice? run cs = none) (hrest : Reads cs nodes stop) :
      Reads (run ++ cs) (Node.cons (.literal run) nodes) stop
  | dice {d : Dice} {numerals : List (List Char)} {text cs : List Char} {nodes : List Node}
      {stop : Option (Block × List Char)} (hwritten : d.WrittenAs numerals text)
      (hdigit : startsWithDigit cs = false) (hmodifier : d.modifier = none → scanModifier? cs = none)
      (hrest : Reads cs nodes stop) :
      Reads (text ++ cs) (.dice d :: nodes) stop
  | block {kind : Block} {body cs : List Char} {nodes : List Node}
      {stop : Option (Block × List Char)} (hbody : kind.closer ∉ body)
      (hrest : Reads cs nodes stop) :
      Reads (kind.opener :: body ++ kind.closer :: cs) (Node.cons (.block kind body) nodes) stop

/-! ## The character in front -/

theorem isPlain_eq_true_iff {c : Char} :
    isPlain c = true ↔ Block.ofOpener? c = none ∧ c.isDigit = false := by
  simp [isPlain]

@[simp] theorem Block.isDigit_opener (kind : Block) : kind.opener.isDigit = false := by
  cases kind <;> rfl

theorem Block.ofOpener?_of_isDigit {c : Char} (hc : c.isDigit = true) : Block.ofOpener? c = none := by
  cases h : Block.ofOpener? c with
  | none => rfl
  | some kind =>
    rw [← Block.opener_of_ofOpener? h, Block.isDigit_opener] at hc
    contradiction

@[simp] theorem isPlain_toChar (s : Sign) : isPlain s.toChar = true := by
  cases s <;> rfl

/-! ## Literal text in front of nodes -/

@[simp] theorem Node.cons_literal_text (cs : List Char) (value : String) (nodes : List Node) :
    Node.cons (.literal cs) (.text value :: nodes) = .text (String.ofList cs ++ value) :: nodes := rfl

theorem Node.cons_literal_of_ne {cs : List Char} {nodes : List Node}
    (h : ∀ value rest, nodes ≠ .text value :: rest) :
    Node.cons (.literal cs) nodes = .text (String.ofList cs) :: nodes := by
  cases nodes with
  | nil => rfl
  | cons node nodes =>
    cases node with
    | text value => exact absurd rfl (h value nodes)
    | choice options => rfl
    | table name => rfl
    | dice d => rfl

theorem Node.cons_literal_cons_literal (cs ds : List Char) (nodes : List Node) :
    Node.cons (.literal cs) (Node.cons (.literal ds) nodes) = Node.cons (.literal (cs ++ ds)) nodes := by
  rcases nodes with _ | ⟨_ | _ | _ | _, nodes⟩ <;>
    simp [Node.cons, String.ofList_append, String.append_assoc]

/-! ## From tokens to readings -/

theorem tokenize_of_next_error {c : Char} {cs : List Char} {kind : Block}
    (h : Token.next c cs = .error kind) : tokenize (c :: cs) = ([], some (kind, c :: cs)) := by
  rw [tokenize]
  split <;> simp_all

theorem tokenize_of_next_ok {c : Char} {cs rest : List Char} {token : Token}
    (h : Token.next c cs = .ok (token, rest)) :
    tokenize (c :: cs) = (token :: (tokenize rest).1, (tokenize rest).2) := by
  rw [tokenize]
  split
  · simp_all
  · next heq =>
    rw [h, Except.ok.injEq, Prod.mk.injEq] at heq
    obtain ⟨rfl, rfl⟩ := heq
    rfl

theorem Reads.plain_append {front cs : List Char} {nodes : List Node}
    {stop : Option (Block × List Char)} (hne : front ≠ []) (hfront : ∀ c ∈ front, isPlain c = true)
    (hrest : Reads cs nodes stop) : Reads (front ++ cs) (Node.cons (.literal front) nodes) stop := by
  induction front with
  | nil => exact absurd rfl hne
  | cons c front ih =>
    have hc := hfront c (by simp)
    by_cases hnil : front = []
    · subst hnil
      exact .plain hc hrest
    · have h := Reads.plain hc (ih hnil fun x hx => hfront x (by simp [hx]))
      rwa [Node.cons_literal_cons_literal] at h

theorem next_opener_of_not_mem {kind : Block} {body : List Char} (hbody : kind.closer ∉ body)
    (rest : List Char) :
    Token.next kind.opener (body ++ kind.closer :: rest) = .ok (.block kind body, rest) := by
  have hbreak : Text.breakAt? (· = kind.closer) (body ++ kind.closer :: rest) =
      some (body, kind.closer, rest) := by
    rw [Text.breakAt?_eq_some_iff]
    refine ⟨rfl, by simp, fun x hx => ?_⟩
    rw [decide_eq_false_iff_not]
    rintro rfl
    exact hbody hx
  simp only [Token.next, Block.ofOpener?_opener, hbreak]

theorem next_opener_eq_error {kind : Block} {cs : List Char} (hcs : kind.closer ∉ cs) :
    Token.next kind.opener cs = .error kind := by
  have hbreak : Text.breakAt? (· = kind.closer) cs = none := by
    rw [Text.breakAt?_eq_none_iff]
    intro x hx
    rw [decide_eq_false_iff_not]
    rintro rfl
    exact hcs hx
  simp only [Token.next, Block.ofOpener?_opener, hbreak]

theorem next_of_isRun {run cs rest : List Char} {c : Char} (hrun : IsRun [] run rest)
    (hcs : c :: cs = run ++ rest) : Token.next c cs = .ok (Token.ofDigits run rest) := by
  have hc : c.isDigit = true := by
    have hstart := Text.startsWithDigit_of_isDigit hrun.ne_nil hrun.isDigit
    rwa [← Text.startsWithDigit_append hrun.ne_nil rest, ← hcs] at hstart
  unfold Token.next
  rw [Block.ofOpener?_of_isDigit hc, hcs, hrun.leadingDigits_append, hrun.afterDigits_append]
  simp only [hc, ↓reduceIte]

theorem next_of_isPlain {c : Char} (hc : isPlain c = true) (cs : List Char) :
    Token.next c cs = .ok (.literal (c :: cs.takeWhile isPlain), cs.dropWhile isPlain) := by
  obtain ⟨hopener, hdigit⟩ := isPlain_eq_true_iff.mp hc
  unfold Token.next
  simp [hopener, hdigit]

theorem Reads.of_next_error {c : Char} {cs : List Char} {kind : Block}
    (h : Token.next c cs = .error kind) : Reads (c :: cs) [] (some (kind, c :: cs)) := by
  unfold Token.next at h
  split at h
  · next hkind =>
    split at h
    · simp at h
    · next hbreak =>
      obtain rfl := Except.error.inj h
      rw [← Block.opener_of_ofOpener? hkind]
      refine .unclosed fun hmem => ?_
      simpa using Text.breakAt?_eq_none_iff.mp hbreak _ hmem
  · split at h <;> simp at h

theorem Reads.of_ofDigits {run cs rest : List Char} {token : Token} {nodes : List Node}
    {stop : Option (Block × List Char)} (hrun : IsRun [] run cs)
    (h : Token.ofDigits run cs = (token, rest)) (hrest : Reads rest nodes stop) :
    Reads (run ++ cs) (Node.cons token nodes) stop := by
  unfold Token.ofDigits at h
  split at h
  · next d used after hscan =>
    obtain ⟨rfl, rfl⟩ := Prod.mk.inj h
    obtain ⟨⟨numerals, hwritten⟩, hafter, hdigits, hmodifier⟩ := scanDice?_eq_some_iff.mp hscan
    rw [hafter, ← List.append_assoc]
    exact .dice hwritten hdigits hmodifier hrest
  · next hscan =>
    obtain ⟨rfl, rfl⟩ := Prod.mk.inj h
    exact .digits hrun hscan hrest

/-- The first token of a text is read by the rule for what stands in front, whatever the rest of the
text is read as. -/
theorem Reads.of_next_ok {c : Char} {cs rest : List Char} {token : Token} {nodes : List Node}
    {stop : Option (Block × List Char)} (h : Token.next c cs = .ok (token, rest))
    (hrest : Reads rest nodes stop) : Reads (c :: cs) (Node.cons token nodes) stop := by
  unfold Token.next at h
  split at h
  · next kind hkind =>
    split at h
    · next body mark after hbreak =>
      simp only [Except.ok.injEq, Prod.mk.injEq] at h
      obtain ⟨rfl, rfl⟩ := h
      obtain ⟨rfl, hmark, hbody⟩ := Text.breakAt?_eq_some_iff.mp hbreak
      obtain rfl := of_decide_eq_true hmark
      rw [← Block.opener_of_ofOpener? hkind]
      exact .block (fun hmem => by simpa using hbody _ hmem) hrest
    · simp at h
  · next hopener =>
    split at h
    · next hdigit =>
      have hrun : IsRun [] (leadingDigits (c :: cs)) (afterDigits (c :: cs)) :=
        Text.isRun_leadingDigits hdigit
      rw [← Text.leadingDigits_append_afterDigits (c :: cs)]
      exact .of_ofDigits hrun (Except.ok.inj h) hrest
    · next hdigit =>
      simp only [Except.ok.injEq, Prod.mk.injEq] at h
      obtain ⟨rfl, rfl⟩ := h
      have hc : isPlain c = true := isPlain_eq_true_iff.mpr ⟨hopener, by simpa using hdigit⟩
      have hfront : ∀ x ∈ c :: cs.takeWhile isPlain, isPlain x = true := by
        intro x hx
        rcases List.mem_cons.mp hx with rfl | hx
        · exact hc
        · exact List.all_eq_true.mp List.all_takeWhile x hx
      have hplain := Reads.plain_append (by simp) hfront hrest
      rwa [List.cons_append, List.takeWhile_append_dropWhile] at hplain

/-- A text is read as the nodes of its tokens. -/
theorem reads_tokenize (cs : List Char) :
    Reads cs (Node.ofTokens (tokenize cs).1) (tokenize cs).2 := by
  fun_induction tokenize cs with
  | case1 => exact .nil
  | case2 c cs kind h => exact .of_next_error h
  | case3 c cs token rest h tokens unclosed hrest ih =>
    simp only [hrest] at ih
    exact .of_next_ok h ih

/-- The nodes of a reading are those of the tokens of the text. -/
theorem tokenize_of_reads {cs : List Char} {nodes : List Node} {stop : Option (Block × List Char)}
    (h : Reads cs nodes stop) :
    Node.ofTokens (tokenize cs).1 = nodes ∧ (tokenize cs).2 = stop := by
  induction h with
  | nil => simp [tokenize, Node.ofTokens]
  | unclosed hbody => simp [tokenize_of_next_error (next_opener_eq_error hbody), Node.ofTokens]
  | @plain c cs nodes stop hc hrest ih =>
    obtain ⟨hnodes, hstop⟩ := ih
    rw [tokenize_of_next_ok (next_of_isPlain hc cs)]
    change Node.cons _ (Node.ofTokens _) = _ ∧ _
    cases cs with
    | nil => exact ⟨by rw [← hnodes]; rfl, hstop⟩
    | cons x cs =>
      cases hx : isPlain x with
      | true =>
        -- the plain characters that follow are in the same token
        rw [tokenize_of_next_ok (next_of_isPlain hx cs)] at hnodes hstop
        change Node.cons _ (Node.ofTokens _) = _ at hnodes
        rw [List.takeWhile_cons_of_pos hx, List.dropWhile_cons_of_pos hx, ← hnodes,
          Node.cons_literal_cons_literal]
        exact ⟨rfl, hstop⟩
      | false =>
        rw [List.takeWhile_cons_of_neg (by simp [hx]), List.dropWhile_cons_of_neg (by simp [hx]),
          hnodes]
        exact ⟨rfl, hstop⟩
  | @digits run cs nodes stop hrun hscan hrest ih =>
    obtain ⟨c, tail, hcons⟩ := List.exists_cons_of_ne_nil hrun.ne_nil
    have hcs : c :: (tail ++ cs) = run ++ cs := by rw [hcons, List.cons_append]
    have hnext := next_of_isRun hrun hcs
    simp only [Token.ofDigits, hscan] at hnext
    rw [← hcs, tokenize_of_next_ok hnext]
    exact ⟨by rw [← ih.1]; rfl, ih.2⟩
  | @dice d numerals text cs nodes stop hwritten hdigit hmodifier hrest ih =>
    obtain ⟨count, more, tail, rfl, rfl, hcount⟩ := hwritten.exists_count
    have hrun : IsRun [] count ('d' :: tail ++ cs) :=
      ⟨Text.ne_nil_of_isNumeralOf hcount, Text.isDigit_of_isNumeralOf hcount, rfl, rfl⟩
    have hscan : scanDice? count ('d' :: tail ++ cs) = some (d, 'd' :: tail, cs) :=
      scanDice?_eq_some_iff.mpr ⟨⟨more, hwritten⟩, rfl, hdigit, hmodifier⟩
    obtain ⟨c, front, rfl⟩ := List.exists_cons_of_ne_nil hrun.ne_nil
    have hnext := next_of_isRun hrun (List.cons_append ..).symm
    simp only [Token.ofDigits, hscan] at hnext
    rw [List.append_assoc, List.cons_append, tokenize_of_next_ok hnext]
    exact ⟨by rw [← ih.1]; rfl, ih.2⟩
  | @block kind body cs nodes stop hbody hrest ih =>
    rw [List.cons_append, tokenize_of_next_ok (next_opener_of_not_mem hbody cs)]
    exact ⟨by rw [← ih.1]; rfl, ih.2⟩

/-- The rules for reading and the tokens of a text agree. -/
theorem reads_iff {cs : List Char} {nodes : List Node} {stop : Option (Block × List Char)} :
    Reads cs nodes stop ↔ Node.ofTokens (tokenize cs).1 = nodes ∧ (tokenize cs).2 = stop := by
  constructor
  · exact tokenize_of_reads
  · rintro ⟨rfl, rfl⟩
    exact reads_tokenize cs

/-- A prompt is read as the nodes that the rules for reading give its whole text. -/
theorem parse_eq_ok_iff_reads {text : String} {nodes : List Node} :
    parse text = .ok nodes ↔ Reads text.toList nodes none := by
  rw [reads_iff]
  simp only [parse]
  rcases tokenize text.toList with ⟨tokens, _ | ⟨kind, rest⟩⟩ <;> simp

/-- A prompt that cannot be read is read up to the block that is never closed. -/
theorem parse_eq_error_iff_reads {text : String} {unclosed : Unclosed} :
    parse text = .error unclosed ↔
      ∃ nodes rest, Reads text.toList nodes (some (unclosed.block, rest)) ∧
        unclosed.span.start = Text.byteLength text.toList - Text.byteLength rest ∧
        unclosed.span.stop = Text.byteLength text.toList := by
  obtain ⟨block, start, stop⟩ := unclosed
  simp only [reads_iff, parse]
  rcases tokenize text.toList with ⟨tokens, _ | ⟨kind, rest⟩⟩
  · simp
  · constructor
    · intro h
      cases h
      exact ⟨_, rest, ⟨rfl, rfl⟩, rfl, rfl⟩
    · rintro ⟨nodes, _, ⟨-, hstop⟩, rfl, rfl⟩
      cases hstop
      rfl

/-- What is left of a text that cannot be read is the end of it. -/
theorem Reads.suffix {cs rest : List Char} {nodes : List Node} {kind : Block}
    (h : Reads cs nodes (some (kind, rest))) : rest <:+ cs := by
  have hsources := tokenize_sources cs
  rw [(reads_iff.mp h).2] at hsources
  exact ⟨_, hsources⟩

end Augury.Prompt
