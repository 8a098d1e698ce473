import Augury.Proofs.ScanStep

/-!
# The scan loop

The loop starts at the front of a text and goes on while its iterations do (`Arrives`).  Wherever it arrives
it stands between two parts of the text: the one that it has passed is made up of the nodes and the pending
text, and the other one is still to be read (`Scan.Within`).  Every iteration but the last moves on, so that
the loop ends, and it ends with the nodes of the text (`scan_in_bounds`).
-/

set_option autoImplicit false

namespace Augury.Prompt

open Text (IsBoundary byteLength)

/-! ## Runs of the loop -/

/-- The states at the start of an iteration, each with the number of iterations before it. -/
inductive Arrives (lexer : Lexer) (text : List Char) : Nat → Scan → Prop where
  | start : Arrives lexer text 0 {}
  | next {n : Nat} {s s' : Scan} (harrives : Arrives lexer text n s)
      (hstep : s.step lexer text = pure (.next s')) : Arrives lexer text (n + 1) s'

/-- What has been passed is made up of one fragment for each node and the pending text. -/
def Scan.Covers (s : Scan) (passed : List Char) : Prop :=
  ∃ fragments, List.Forall₂ Node.WrittenAs s.nodes fragments ∧
    (fragments.map Fragment.text).flatten ++ s.pending = passed

/-- The loop stands between two parts of a text after a number of iterations.  It covers what it has passed,
and together with the nodes of the rest it comes to the nodes of the whole text. -/
structure Scan.Within (text : List Char) (n : Nat) (s : Scan) (passed rest : List Char) : Prop where
  parts : text = passed ++ rest
  position : s.position = byteLength passed
  covers : s.Covers passed
  count : n ≤ s.position
  nodes : s.finish (Node.ofTokens (tokenize rest).1) = Node.ofTokens (tokenize text).1
  unread : (tokenize rest).2 = (tokenize text).2

namespace Scan

variable {s : Scan} {text passed rest : List Char} {n : Nat} {token : Token}

theorem Covers.flushed (h : s.Covers passed) : ∃ fragments,
    List.Forall₂ Node.WrittenAs s.flushed fragments ∧
      (fragments.map Fragment.text).flatten = passed := by
  obtain ⟨fragments, hnodes, rfl⟩ := h
  unfold Scan.flushed
  split
  · next hempty =>
    rw [List.isEmpty_iff.mp hempty, List.append_nil]
    exact ⟨fragments, hnodes, rfl⟩
  · have hpending := Node.writtenAs_text (String.ofList s.pending)
    rw [String.toList_ofList] at hpending
    exact ⟨fragments ++ [⟨[], s.pending⟩], List.rel_append hnodes (.cons hpending .nil), by simp⟩

theorem Covers.push (h : s.Covers passed) {node : Node} {fragment : Fragment}
    (hnode : node.WrittenAs fragment) (position : Nat) :
    (s.push node position).Covers (passed ++ fragment.text) := by
  obtain ⟨fragments, hnodes, rfl⟩ := h.flushed
  refine ⟨fragments ++ [fragment], List.rel_append hnodes (.cons hnode .nil), ?_⟩
  simp [Scan.push]

theorem Covers.append (h : s.Covers passed) (cs : List Char) (position : Nat) :
    (s.append cs position).Covers (passed ++ cs) := by
  obtain ⟨fragments, hnodes, rfl⟩ := h
  exact ⟨fragments, hnodes, by simp [Scan.append]⟩

/-- The fragment of a token is its source. -/
theorem Covers.add (h : s.Covers passed) {c : Char} {cs : List Char}
    (hnext : Token.next c cs = .ok (token, rest)) : (s.add token).Covers (passed ++ token.source) := by
  cases token with
  | literal cs => exact h.append cs _
  | block kind body => exact h.push (kind.writtenAs_node body) _
  | dice source d =>
    obtain ⟨numerals, hwritten⟩ := exists_writtenAs_of_next hnext
    exact h.push (.dice hwritten) _

theorem position_add (s : Scan) (token : Token) :
    (s.add token).position = s.position + byteLength token.source := by
  cases token <;> rfl

theorem within_start (text : List Char) : Within text 0 {} [] text where
  parts := rfl
  position := rfl
  covers := ⟨[], .nil, rfl⟩
  count := Nat.le_refl 0
  nodes := rfl
  unread := rfl

/-- A token moves the loop on by its source, which is not empty. -/
theorem Within.add {c : Char} {cs : List Char} (h : Within text n s passed (c :: cs))
    (hnext : Token.next c cs = .ok (token, rest)) :
    Within text (n + 1) (s.add token) (passed ++ token.source) rest ∧
      s.position < (s.add token).position := by
  have hne : token.source ≠ [] := List.ne_nil_of_length_pos (length_source_pos_of_next hnext)
  have hsource : 0 < byteLength token.source := Text.byteLength_pos hne
  have hposition := s.position_add token
  have htokens := tokenize_of_next_ok hnext
  constructor
  · constructor
    case parts => rw [List.append_assoc, append_of_next hnext, ← h.parts]
    case position => rw [hposition, h.position, Text.byteLength_append]
    case covers => exact h.covers.add hnext
    case count =>
      have hcount := h.count
      omega
    case nodes =>
      rw [finish_add hne, ← h.nodes, htokens]
      rfl
    case unread => rw [← h.unread, htokens]
  · omega

/-- An iteration ends the loop at the end of the text, or fails at a block that is never closed, or moves
on. -/
theorem Within.step_cases (h : Within text n s passed rest) :
    (s.step .greedy text = pure .done ∧ rest = []) ∨
      (∃ kind, s.step .greedy text = pure (.failed
          { block := kind, span := { start := s.position, stop := byteLength text } }) ∧
        rest ≠ [] ∧ tokenize rest = ([], some (kind, rest))) ∨
      ∃ s' passed' rest', s.step .greedy text = pure (.next s') ∧
        Within text (n + 1) s' passed' rest' ∧ s.position < s'.position := by
  have htext := h.parts
  cases rest with
  | nil =>
    left
    rw [htext]
    exact ⟨step_nil h.position, rfl⟩
  | cons c cs =>
    have hstep := step_eq h.position c cs
    rw [← htext] at hstep
    cases hnext : Token.next c cs with
    | error kind =>
      rw [hnext] at hstep
      exact .inr (.inl ⟨kind, hstep, List.cons_ne_nil c cs, tokenize_of_next_error hnext⟩)
    | ok cut =>
      obtain ⟨token, rest⟩ := cut
      rw [hnext] at hstep
      exact .inr (.inr ⟨_, _, _, hstep, h.add hnext⟩)

theorem Within.of_step_next {s' : Scan} (h : Within text n s passed rest)
    (hstep : s.step .greedy text = pure (.next s')) :
    (∃ passed' rest', Within text (n + 1) s' passed' rest') ∧ s.position < s'.position := by
  rcases h.step_cases with ⟨hdone, -⟩ | ⟨kind, hfailed, -⟩ | ⟨_, _, _, hnext, hmoved, hlt⟩
  · rw [hstep] at hdone
    cases hdone
  · rw [hstep] at hfailed
    cases hfailed
  · rw [hstep] at hnext
    cases hnext
    exact ⟨⟨_, _, hmoved⟩, hlt⟩

theorem Within.position_le (h : Within text n s passed rest) : s.position ≤ byteLength text := by
  rw [h.position, h.parts, Text.byteLength_append]
  omega

end Scan

/-- The loop always stands between two parts of the text. -/
theorem Arrives.exists_within {text : List Char} {n : Nat} {s : Scan} (h : Arrives .greedy text n s) :
    ∃ passed rest, s.Within text n passed rest := by
  induction h with
  | start => exact ⟨_, _, Scan.within_start text⟩
  | next _ hstep ih =>
    obtain ⟨passed, rest, hwithin⟩ := ih
    exact (hwithin.of_step_next hstep).1

/-- The loop comes to an iteration that is the last, since every other one moves it on. -/
theorem Arrives.exists_last {text : List Char} {n : Nat} {s : Scan} (h : Arrives .greedy text n s) :
    ∃ m last, Arrives .greedy text m last ∧ ∀ s', last.step .greedy text ≠ pure (.next s') := by
  by_cases hnext : ∃ s', s.step .greedy text = pure (.next s')
  · obtain ⟨s', hstep⟩ := hnext
    exact (h.next hstep).exists_last
  · exact ⟨n, s, h, fun s' hstep => hnext ⟨s', hstep⟩⟩
termination_by byteLength text - s.position
decreasing_by
  -- the position grows with every iteration and never passes the end of the text
  obtain ⟨passed, rest, hwithin⟩ := h.exists_within
  obtain ⟨⟨passed', rest', hwithin'⟩, hlt⟩ := hwithin.of_step_next hstep
  have hle := hwithin'.position_le
  omega

section Last

variable {text : String} {n : Nat} {s : Scan} {passed rest : List Char}

theorem parse_of_step_done (h : s.Within text.toList n passed rest)
    (hstep : s.step .greedy text.toList = pure .done) :
    s.position = byteLength text.toList ∧ parse text = .ok s.flushed := by
  rcases h.step_cases with ⟨-, rfl⟩ | ⟨kind, hfailed, -⟩ | ⟨s', _, _, hnext, -⟩
  · have hend : s.position = byteLength text.toList := by
      rw [h.position, h.parts, List.append_nil]
    have hnodes : s.flushed = Node.ofTokens (tokenize text.toList).1 := by
      rw [← h.nodes, ← s.finish_nil, tokenize]
      rfl
    have hunread : (tokenize text.toList).2 = none := by rw [← h.unread, tokenize]
    refine ⟨hend, ?_⟩
    rw [parse_eq_ok_iff_reads, reads_iff]
    exact ⟨hnodes.symm, hunread⟩
  · rw [hstep] at hfailed
    cases hfailed
  · rw [hstep] at hnext
    cases hnext

theorem parse_of_step_failed (h : s.Within text.toList n passed rest) {unclosed : Unclosed}
    (hstep : s.step .greedy text.toList = pure (.failed unclosed)) :
    n < byteLength text.toList ∧ parse text = .error unclosed := by
  rcases h.step_cases with ⟨hdone, -⟩ | ⟨kind, hfailed, hne, htokens⟩ | ⟨s', _, _, hnext, -⟩
  · rw [hstep] at hdone
    cases hdone
  · rw [hstep] at hfailed
    cases hfailed
    have hlength : byteLength text.toList = s.position + byteLength rest := by
      rw [h.position, h.parts, Text.byteLength_append]
    have hrest : 0 < byteLength rest := Text.byteLength_pos hne
    have hcount := h.count
    have hunread : (tokenize text.toList).2 = some (kind, rest) := by rw [← h.unread, htokens]
    refine ⟨by omega, ?_⟩
    rw [parse_eq_error_iff_reads]
    refine ⟨_, rest, reads_iff.mpr ⟨rfl, hunread⟩, ?_, rfl⟩
    show s.position = _
    omega
  · rw [hstep] at hnext
    cases hnext

end Last

/-- **The scan loop never leaves the text.**  At every iteration the lexer stands at a boundary of the text,
what it has passed is made up of the fragments of the nodes and the pending text, and it finds no error in
what follows.  All slices of the iteration are well placed; it ends the loop at the end of the text, or fails,
or moves on by one byte at least.  So there are no more iterations than bytes, and the last one ends with the
nodes of the text or fails as reading the text does.  The slices of an expression of dice are well placed in
any text. -/
theorem scan_in_bounds {lexer : Lexer} (hlexer : lexer.TakesLongest) (text : String) :
    (∀ n s, Arrives lexer text.toList n s →
        n ≤ s.position ∧ s.position ≤ byteLength text.toList ∧ IsBoundary text.toList s.position ∧
        (∃ passed rest fragments, text.toList = passed ++ rest ∧ byteLength passed = s.position ∧
          List.Forall₂ Node.WrittenAs s.nodes fragments ∧
          (fragments.map Fragment.text).flatten ++ s.pending = passed ∧
          ∀ width, lexer rest ≠ some (none, width)) ∧
        (s.step lexer text.toList = .ok .done ∨
          (∃ unclosed, s.step lexer text.toList = .ok (.failed unclosed)) ∨
          ∃ s', s.step lexer text.toList = .ok (.next s') ∧ s.position < s'.position)) ∧
      (∃ n s, Arrives lexer text.toList n s ∧
        ((s.step lexer text.toList = .ok .done ∧ n ≤ byteLength text.toList ∧
            s.position = byteLength text.toList ∧ parse text = .ok s.flushed) ∨
          ∃ unclosed, s.step lexer text.toList = .ok (.failed unclosed) ∧
            n < byteLength text.toList ∧ parse text = .error unclosed)) ∧
      Dice.parseBytes text = .ok (Dice.parse text) := by
  obtain rfl := Lexer.takesLongest_iff.mp hlexer
  refine ⟨?every, ?last, Dice.parseBytes_eq text⟩
  case every =>
    intro n s harrives
    obtain ⟨passed, rest, hwithin⟩ := harrives.exists_within
    obtain ⟨fragments, hnodes, hpassed⟩ := hwithin.covers
    have hboundary : IsBoundary text.toList s.position :=
      ⟨passed, ⟨rest, hwithin.parts.symm⟩, hwithin.position.symm⟩
    have herror : ∀ width, Lexer.greedy rest ≠ some (none, width) := by
      intro width
      cases rest <;> simp [Lexer.greedy]
    refine ⟨hwithin.count, hwithin.position_le, hboundary,
      ⟨passed, rest, fragments, hwithin.parts, hwithin.position.symm, hnodes, hpassed, herror⟩, ?_⟩
    rcases hwithin.step_cases with ⟨hdone, -⟩ | ⟨kind, hfailed, -⟩ | ⟨s', _, _, hnext, -, hlt⟩
    · exact .inl hdone
    · exact .inr (.inl ⟨_, hfailed⟩)
    · exact .inr (.inr ⟨s', hnext, hlt⟩)
  case last =>
    have hstart : Arrives .greedy text.toList 0 {} := .start
    obtain ⟨n, s, harrives, hlast⟩ := hstart.exists_last
    obtain ⟨passed, rest, hwithin⟩ := harrives.exists_within
    refine ⟨n, s, harrives, ?_⟩
    rcases hwithin.step_cases with ⟨hdone, -⟩ | ⟨kind, hfailed, -⟩ | ⟨s', _, _, hnext, -⟩
    · obtain ⟨hend, hparse⟩ := parse_of_step_done hwithin hdone
      exact .inl ⟨hdone, hwithin.count.trans hwithin.position_le, hend, hparse⟩
    · obtain ⟨hcount, hparse⟩ := parse_of_step_failed hwithin hfailed
      exact .inr ⟨_, hfailed, hcount, hparse⟩
    · exact absurd hnext (hlast s')

/-- Characters of several bytes stand in front of dice, in the body of a block and behind a sign; in the other
text the last block is never closed. -/
theorem scan_in_bounds_wide :
    let text := "é07d6+1ü\x7ba|€\x7d2d4-😀"
    let nodes : List Node := [.text "é",
      .dice { count := 7, sides := 6, modifier := some { sign := .plus, value := 1 } }, .text "ü",
      .choice ["a", "€"], .dice { count := 2, sides := 4 }, .text "-😀"]
    let unclosed : Unclosed := { block := .table, span := { start := 6, stop := 9 } }
    Lexer.greedy.TakesLongest ∧
      (parse text = .ok nodes ∧ ∃ n s, Arrives .greedy text.toList n s ∧ n ≤ 25 ∧
        s.position = 25 ∧ s.flushed = nodes) ∧
      parse "1d😀[é" = .error unclosed ∧ ∃ n s, Arrives .greedy "1d😀[é".toList n s ∧ n < 9 ∧
        s.step .greedy "1d😀[é".toList = .ok (.failed unclosed) := by
  intro text nodes unclosed
  have hparse : parse text = .ok nodes := by cbv
  have hlength : byteLength text.toList = 25 := by cbv
  have herror : parse "1d😀[é" = .error unclosed := by cbv
  have hlength' : byteLength "1d😀[é".toList = 9 := by cbv
  obtain ⟨-, ⟨n, s, harrives, hlast⟩, -⟩ := scan_in_bounds Lexer.takesLongest_greedy text
  obtain ⟨-, ⟨m, t, harrives', hlast'⟩, -⟩ := scan_in_bounds Lexer.takesLongest_greedy "1d😀[é"
  rw [hparse, hlength] at hlast
  rw [herror, hlength'] at hlast'
  refine ⟨Lexer.takesLongest_greedy, ⟨hparse, n, s, harrives, ?_⟩, herror, m, t, harrives', ?_⟩
  · rcases hlast with ⟨-, hcount, hend, hnodes⟩ | ⟨unclosed, -, -, hfailed⟩
    · exact ⟨hcount, hend, (Except.ok.inj hnodes).symm⟩
    · cases hfailed
  · rcases hlast' with ⟨-, -, -, hnodes⟩ | ⟨other, hfailed, hcount, hother⟩
    · cases hnodes
    · obtain rfl := Except.error.inj hother
      exact ⟨hcount, hfailed⟩

end Augury.Prompt
