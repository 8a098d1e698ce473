import Augury.Proofs.ByteScanning
import Augury.Proofs.Lexing
import Augury.Proofs.Spelling

/-!
# One iteration of the scan loop

A prompt can be read by a loop over a lexer that keeps a byte offset into the text, the nodes pushed so far
and the literal text that is still pending.  `Scan.step` is one iteration of it: the text of a block is sliced
out of what follows its opening character, and dice move the lexer on by the bytes that they take up.  An
iteration does what the first token of the rest of the text says, and no slice of it is misplaced
(`Scan.step_eq`).
-/

set_option autoImplicit false

namespace Augury.Prompt

open Text (Misplaced byteLength leadingDigits afterDigits offsetOf? slice sliceFrom sliceTo)

/-! ## One iteration -/

/-- The node of a block. -/
def Block.node : Block → List Char → Node
  | .choice, body => .choice ((Text.splitOn '|' body).map String.ofList)
  | .table, body => .table (String.ofList body)

/-- Where the lexer stands, the nodes pushed so far, and the literal text that is no node yet. -/
structure Scan where
  position : Nat := 0
  nodes : List Node := []
  pending : List Char := []
deriving Repr, DecidableEq

namespace Scan

/-- The nodes with one for the pending text, if there is any. -/
def flushed (s : Scan) : List Node :=
  if s.pending.isEmpty then s.nodes else s.nodes ++ [.text (String.ofList s.pending)]

def push (s : Scan) (node : Node) (position : Nat) : Scan where
  position := position
  nodes := s.flushed ++ [node]

def append (s : Scan) (cs : List Char) (position : Nat) : Scan where
  position := position
  nodes := s.nodes
  pending := s.pending ++ cs

/-- What an iteration comes to: the end of the text, an error, or the next iteration. -/
inductive Step where
  | done
  | failed (unclosed : Unclosed)
  | next (s : Scan)
deriving Repr, DecidableEq

/-- Moves the lexer on by a number of bytes. -/
def bump (text : List Char) (position width : Nat) : Except Misplaced Nat := do
  let _ ← sliceFrom text (position + width)
  return position + width

/-- What stands in front of a closing character behind the lexer, and where the lexer is moved: behind the
closing character.  There is nothing when no closing character follows. -/
def blockBody (text : List Char) (position : Nat) (closer : Char) :
    Except Misplaced (Option (List Char × Nat)) := do
  let remainder ← sliceFrom text position
  match offsetOf? (· = closer) remainder with
  | none => return none
  | some offset =>
    let position ← bump text position (offset + closer.utf8Size)
    return some (← sliceTo remainder offset, position)

/-- One iteration of the loop.  An error of the lexer is taken for plain text. -/
def step (lexer : Lexer) (text : List Char) (s : Scan) : Except Misplaced Step := do
  match lexer (← sliceFrom text s.position) with
  | none => return .done
  | some (lexeme, width) =>
    let stop := s.position + width
    match lexeme with
    | some (.opener kind) =>
      match ← blockBody text stop kind.closer with
      | none => return .failed { block := kind, span := { start := s.position, stop := byteLength text } }
      | some (body, position) => return .next (s.push (kind.node body) position)
    | some .digits =>
      let count ← slice text s.position stop
      match ← diceBytes count (← sliceFrom text stop) with
      | none => return .next (s.append count stop)
      | some (d, width) => return .next (s.push (.dice d) (← bump text stop width))
    | some .plain | none => return .next (s.append (← slice text s.position stop) stop)

/-! ## Iterations and tokens -/

/-- The state behind a token. -/
def add (s : Scan) : Token → Scan
  | .literal cs => s.append cs (s.position + byteLength cs)
  | .block kind body => s.push (kind.node body) (s.position + byteLength (Token.block kind body).source)
  | .dice source d => s.push (.dice d) (s.position + byteLength source)

variable {s : Scan} {passed cs : List Char} {c : Char}

theorem bump_append (front middle back : List Char) :
    bump (front ++ middle ++ back) (byteLength front) (byteLength middle) =
      pure (byteLength front + byteLength middle) := by
  rw [bump, ← Text.byteLength_append, Text.sliceFrom_append]
  rfl

theorem sliceFrom_position (hposition : s.position = byteLength passed) (cs : List Char) :
    sliceFrom (passed ++ cs) s.position = pure cs := by
  rw [hposition, Text.sliceFrom_append]

theorem blockBody_eq (front cs : List Char) (closer : Char) :
    blockBody (front ++ cs) (byteLength front) closer =
      pure ((Text.breakAt? (· = closer) cs).map fun cut =>
        (cut.1, byteLength front + byteLength (cut.1 ++ [closer]))) := by
  unfold blockBody
  simp only [Text.sliceFrom_append, pure_bind, Text.offsetOf?_eq_map_breakAt?]
  cases hbreak : Text.breakAt? (fun x => decide (x = closer)) cs with
  | none => rfl
  | some cut =>
    obtain ⟨body, mark, rest⟩ := cut
    obtain ⟨rfl, hmark, -⟩ := Text.breakAt?_eq_some_iff.mp hbreak
    obtain rfl := of_decide_eq_true hmark
    have hbump := bump_append front (body ++ [mark]) rest
    have hwidth : byteLength (body ++ [mark]) = byteLength body + mark.utf8Size := by simp
    rw [List.append_assoc, List.append_assoc, List.singleton_append, hwidth] at hbump
    simp only [Option.map_some, hbump, Text.sliceTo_append, pure_bind, hwidth]

/-- The lexer takes a stretch off what follows, and slices see the stretch and what is behind it. -/
theorem slice_longest (hposition : s.position = byteLength passed) (c : Char) (cs : List Char) :
    ∃ rest, c :: cs = Lexeme.longest c cs ++ rest ∧
      s.position + byteLength (Lexeme.longest c cs) = byteLength (passed ++ Lexeme.longest c cs) ∧
      passed ++ c :: cs = passed ++ Lexeme.longest c cs ++ rest ∧
      slice (passed ++ c :: cs) s.position (s.position + byteLength (Lexeme.longest c cs)) =
        pure (Lexeme.longest c cs) := by
  obtain ⟨rest, hrest⟩ := Lexeme.longest_prefix_cons c cs
  have htext : passed ++ c :: cs = passed ++ Lexeme.longest c cs ++ rest := by
    rw [List.append_assoc, hrest]
  refine ⟨rest, hrest.symm, ?_, htext, ?_⟩
  · rw [hposition, Text.byteLength_append]
  · rw [htext, hposition, Text.slice_append]

theorem step_opener {kind : Block} (hposition : s.position = byteLength passed)
    (hopener : Block.ofOpener? c = some kind) (cs : List Char) :
    s.step .greedy (passed ++ c :: cs) = pure (match Text.breakAt? (· = kind.closer) cs with
      | none => .failed
          { block := kind, span := { start := s.position, stop := byteLength (passed ++ c :: cs) } }
      | some (body, _, _) => .next (s.add (.block kind body))) := by
  have hlexeme := Lexeme.ofChar_of_ofOpener? hopener
  have hlongest : Lexeme.longest c cs = [c] := by rw [Lexeme.longest, hlexeme]
  have hstop : s.position + byteLength [c] = byteLength (passed ++ [c]) := by
    rw [hposition, Text.byteLength_append]
  have hbody := blockBody_eq (passed ++ [c]) cs kind.closer
  rw [List.append_assoc, List.singleton_append, ← hstop] at hbody
  unfold step
  simp only [sliceFrom_position hposition, pure_bind, Lexer.greedy, hlexeme, hlongest, hbody]
  cases Text.breakAt? (· = kind.closer) cs with
  | none => rfl
  | some cut =>
    obtain ⟨body, mark, rest⟩ := cut
    obtain rfl := Block.opener_of_ofOpener? hopener
    have hsource : byteLength (Token.block kind body).source =
        byteLength [kind.opener] + byteLength (body ++ [kind.closer]) :=
      Text.byteLength_append [kind.opener] (body ++ [kind.closer])
    simp only [Option.map_some, add, hsource, Nat.add_assoc]

theorem step_digits (hposition : s.position = byteLength passed) (hopener : Block.ofOpener? c = none)
    (hdigit : c.isDigit = true) (cs : List Char) :
    s.step .greedy (passed ++ c :: cs) = pure (.next
      (s.add (Token.ofDigits (leadingDigits (c :: cs)) (afterDigits (c :: cs))).1)) := by
  have hlexeme := Lexeme.ofChar_of_isDigit hopener hdigit
  have hlongest : Lexeme.longest c cs = leadingDigits (c :: cs) := by
    rw [Lexeme.longest, hlexeme]
    rfl
  obtain ⟨rest, hrest, hstop, htext, hslice⟩ := slice_longest hposition c cs
  rw [hlongest] at hrest hstop htext hslice
  obtain rfl : afterDigits (c :: cs) = rest :=
    List.append_cancel_left ((Text.leadingDigits_append_afterDigits _).trans hrest)
  have hfrom : sliceFrom (passed ++ c :: cs) (s.position + byteLength (leadingDigits (c :: cs))) =
      pure (afterDigits (c :: cs)) := by
    rw [hstop, htext, Text.sliceFrom_append]
  unfold step
  simp only [sliceFrom_position hposition, pure_bind, Lexer.greedy, hlexeme, hlongest, hslice, hfrom,
    diceBytes_eq, Token.ofDigits]
  cases hscan : scanDice? (leadingDigits (c :: cs)) (afterDigits (c :: cs)) with
  | none => rfl
  | some found =>
    obtain ⟨d, used, back⟩ := found
    -- the dice take up the front of what is behind their count, so the lexer stays in the text
    have hbump := bump_append (passed ++ leadingDigits (c :: cs)) used back
    rw [List.append_assoc, append_of_scanDice? hscan, ← htext, ← hstop] at hbump
    simp only [Option.map_some, hbump, pure_bind, add, Text.byteLength_append, Nat.add_assoc]

theorem step_plain (hposition : s.position = byteLength passed) (hopener : Block.ofOpener? c = none)
    (hdigit : c.isDigit = false) (cs : List Char) :
    s.step .greedy (passed ++ c :: cs) = pure (.next (s.add (.literal (c :: cs.takeWhile isPlain)))) := by
  have hlexeme := Lexeme.ofChar_of_not_isDigit hopener hdigit
  have hplain := isPlain_eq_true_iff.mpr ⟨hopener, hdigit⟩
  have hlongest : Lexeme.longest c cs = c :: cs.takeWhile isPlain := by
    rw [Lexeme.longest, hlexeme]
    exact List.takeWhile_cons_of_pos hplain
  obtain ⟨-, -, -, -, hslice⟩ := slice_longest hposition c cs
  rw [hlongest] at hslice
  unfold step
  simp only [sliceFrom_position hposition, pure_bind, Lexer.greedy, hlexeme, hlongest, hslice]
  rfl

/-- An iteration does what the first token of the rest of the text says. -/
theorem step_eq (hposition : s.position = byteLength passed) (c : Char) (cs : List Char) :
    s.step .greedy (passed ++ c :: cs) = pure (match Token.next c cs with
      | .error kind => .failed
          { block := kind, span := { start := s.position, stop := byteLength (passed ++ c :: cs) } }
      | .ok (token, _) => .next (s.add token)) := by
  unfold Token.next
  cases hopener : Block.ofOpener? c with
  | some kind =>
    rw [step_opener hposition hopener]
    simp only
    cases Text.breakAt? (· = kind.closer) cs <;> rfl
  | none =>
    cases hdigit : c.isDigit with
    | true => exact step_digits hposition hopener hdigit cs
    | false => exact step_plain hposition hopener hdigit cs

theorem step_nil (hposition : s.position = byteLength passed) :
    s.step .greedy (passed ++ []) = pure .done := by
  unfold step
  simp only [sliceFrom_position hposition, pure_bind, Lexer.greedy]

/-! ## The nodes to come -/

/-- The nodes of a text, given the nodes of what the scan has not passed yet. -/
def finish (s : Scan) (nodes : List Node) : List Node :=
  s.nodes ++ if s.pending.isEmpty then nodes else Node.cons (.literal s.pending) nodes

theorem finish_nil (s : Scan) : s.finish [] = s.flushed := by
  unfold finish flushed
  split
  · rw [List.append_nil]
  · rfl

theorem finish_cons {node : Node} (hnode : ∀ value, node ≠ .text value) (nodes : List Node) :
    s.finish (node :: nodes) = s.flushed ++ node :: nodes := by
  unfold finish flushed
  split
  · rfl
  · rw [Node.cons_literal_of_ne, List.append_assoc, List.singleton_append]
    rintro value rest heq
    exact hnode value (List.cons.inj heq).1

theorem finish_push (s : Scan) {node : Node} (hnode : ∀ value, node ≠ .text value) (position : Nat)
    (nodes : List Node) : (s.push node position).finish nodes = s.finish (node :: nodes) := by
  rw [finish_cons hnode]
  simp only [finish, push, List.isEmpty_nil, ↓reduceIte, List.append_assoc, List.singleton_append]

theorem finish_append (s : Scan) {cs : List Char} (hne : cs ≠ []) (position : Nat)
    (nodes : List Node) :
    (s.append cs position).finish nodes = s.finish (Node.cons (.literal cs) nodes) := by
  have hpending : (s.pending ++ cs).isEmpty = false := by simp [hne]
  simp only [finish, append, hpending, Bool.false_eq_true, ↓reduceIte]
  split
  · next hempty => rw [List.isEmpty_iff.mp hempty, List.nil_append]
  · rw [Node.cons_literal_cons_literal]

end Scan

theorem Block.cons_eq_node (kind : Block) (body : List Char) (nodes : List Node) :
    Node.cons (.block kind body) nodes = kind.node body :: nodes := by
  cases kind <;> rfl

theorem Block.node_ne_text (kind : Block) (body : List Char) (value : String) :
    kind.node body ≠ .text value := by
  cases kind <;> simp [Block.node]

theorem Block.writtenAs_node (kind : Block) (body : List Char) :
    (kind.node body).WrittenAs ⟨[], (Token.block kind body).source⟩ := by
  obtain ⟨node, hnode, hrender, hcons⟩ := exists_node_of_block kind body
  obtain ⟨rfl, -⟩ := List.cons.inj ((hcons []).symm.trans (kind.cons_eq_node body []))
  rw [Token.source, ← hrender]
  exact .exact hnode

theorem Scan.finish_add {token : Token} (hne : token.source ≠ []) (s : Scan) (nodes : List Node) :
    (s.add token).finish nodes = s.finish (Node.cons token nodes) := by
  cases token with
  | literal cs => exact s.finish_append hne _ nodes
  | block kind body =>
    rw [Block.cons_eq_node]
    exact s.finish_push (kind.node_ne_text body) _ nodes
  | dice source d => exact s.finish_push (by simp) _ nodes

theorem exists_writtenAs_of_next {c : Char} {cs source rest : List Char} {d : Dice}
    (h : Token.next c cs = .ok (.dice source d, rest)) : ∃ numerals, d.WrittenAs numerals source := by
  unfold Token.next at h
  split at h
  · split at h <;> cases h
  · split at h
    · have hdigits := Except.ok.inj h
      unfold Token.ofDigits at hdigits
      split at hdigits
      · next value used back hscan =>
        cases hdigits
        obtain ⟨⟨numerals, hwritten⟩, -⟩ := scanDice?_eq_some_iff.mp hscan
        exact ⟨_, hwritten⟩
      · cases hdigits
    · cases h

end Augury.Prompt
