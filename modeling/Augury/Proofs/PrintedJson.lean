import Augury.Json.Parsing
import Augury.Json.Pretty
import Augury.Proofs.DigitRuns
import Mathlib.Data.List.Forall2

/-!
# Reading printed documents

A printed document is read back as the value that was printed (`parse?_pretty`).  Tokens are taken one at a
time, so that cutting a text into tokens and running the machine on them can be followed together:
`readFrom?` is the state that the machine comes to from a state by the tokens of a text.  A text spells a
value when it takes the machine from any state in front of a value to the state behind that value
(`Spells`), and what spells the parts of an array or of an object makes up a text that spells the whole.

Printed integers end at the first character that cannot go on with a number, which is why something is
asked of the text behind a value: it is empty or starts with a comma or with white space.
-/

set_option autoImplicit false

namespace Augury.Json

open Text (leadingDigits afterDigits startsWithDigit)

/-! ## Strings -/

/-- Puts a piece in front of what has been read of a string. -/
def addPiece (piece : Piece) (read : List Piece × List Char) : List Piece × List Char :=
  (piece :: read.1, read.2)

theorem pieces?_letter {letter c : Char} (h : letterEscape? letter = some c) (cs : List Char) :
    pieces? ('\\' :: letter :: cs) = (pieces? cs).map (addPiece (.char c)) := by
  have hletter : letter ≠ 'u' := by
    rintro rfl
    cases h
  rw [pieces?, h]
  · cases pieces? cs <;> rfl
  · intro _ _ _ _ _ hu _
    exact hletter hu

theorem pieces?_unit {a b c d : Char} {bits : Nat} (h : hexUnit? a b c d = some bits)
    (cs : List Char) :
    pieces? ('\\' :: 'u' :: a :: b :: c :: d :: cs) = (pieces? cs).map (addPiece (.unit bits)) := by
  rw [pieces?, h]
  cases pieces? cs <;> rfl

theorem pieces?_raw {c : Char} (hquote : c ≠ '"') (hraw : isRaw c = true) (cs : List Char) :
    pieces? (c :: cs) = (pieces? cs).map (addPiece (.char c)) := by
  have hbackslash : c ≠ '\\' := by
    rintro rfl
    cases hraw
  rw [pieces?, if_pos hraw]
  · cases pieces? cs <;> rfl
  · exact hquote
  · rintro _ _ _ _ _ rfl
    contradiction
  · rintro _ _ rfl
    contradiction

theorem hexDigit?_digitChar {n : Nat} (h : n < 16) : hexDigit? (Nat.digitChar n) = some n := by
  revert n
  decide

theorem hexUnit?_control {n : Nat} (h : n < 0x20) :
    hexUnit? '0' '0' (Nat.digitChar (n / 16)) (Nat.digitChar (n % 16)) = some n := by
  have hzero : hexDigit? '0' = some 0 := rfl
  have hhigh : hexDigit? (Nat.digitChar (n / 16)) = some (n / 16) := hexDigit?_digitChar (by omega)
  have hlow : hexDigit? (Nat.digitChar (n % 16)) = some (n % 16) := hexDigit?_digitChar (by omega)
  simp only [hexUnit?, hzero, hhigh, hlow, Option.bind_eq_bind, Option.bind_some, Option.pure_def,
    Option.some.injEq]
  omega

theorem joinPieces?_control {c : Char} (h : c.toNat < 0x20) (pieces : List Piece) :
    joinPieces? (.unit c.toNat :: pieces) = (joinPieces? pieces).map (c :: ·) := by
  have hhigh : isHighSurrogate c.toNat = false := by
    simp only [isHighSurrogate, Bool.and_eq_false_iff, decide_eq_false_iff_not]
    omega
  have hlow : isLowSurrogate c.toNat = false := by
    simp only [isLowSurrogate, Bool.and_eq_false_iff, decide_eq_false_iff_not]
    omega
  rw [joinPieces?.eq_def]
  simp only [hhigh, hlow, Bool.false_eq_true, ↓reduceIte, Char.ofNat_toNat]

/-- A printed character is read as one piece that stands for it. -/
theorem exists_pieces?_escapeChar (c : Char) (cs : List Char) :
    ∃ piece, pieces? (escapeChar c ++ cs) = (pieces? cs).map (addPiece piece) ∧
      ∀ pieces, joinPieces? (piece :: pieces) = (joinPieces? pieces).map (c :: ·) := by
  unfold escapeChar
  split
  · exact ⟨_, pieces?_letter rfl cs, fun _ => rfl⟩
  · exact ⟨_, pieces?_letter rfl cs, fun _ => rfl⟩
  · exact ⟨_, pieces?_letter rfl cs, fun _ => rfl⟩
  · exact ⟨_, pieces?_letter rfl cs, fun _ => rfl⟩
  · exact ⟨_, pieces?_letter rfl cs, fun _ => rfl⟩
  · exact ⟨_, pieces?_letter rfl cs, fun _ => rfl⟩
  · exact ⟨_, pieces?_letter rfl cs, fun _ => rfl⟩
  · next hquote hbackslash _ _ _ _ _ =>
    split
    · next hcontrol =>
      exact ⟨_, pieces?_unit (hexUnit?_control hcontrol) cs, joinPieces?_control hcontrol⟩
    · next hprinted =>
      have hraw : isRaw c = true := by
        simp only [isRaw, Bool.and_eq_true, decide_eq_true_eq, bne_iff_ne]
        exact ⟨Nat.le_of_not_lt hprinted, hbackslash⟩
      exact ⟨_, pieces?_raw hquote hraw cs, fun _ => rfl⟩

theorem exists_pieces?_flatMap_escapeChar (cs rest : List Char) :
    ∃ pieces, pieces? (cs.flatMap escapeChar ++ '"' :: rest) = some (pieces, rest) ∧
      joinPieces? pieces = some cs := by
  induction cs with
  | nil => exact ⟨[], rfl, rfl⟩
  | cons c cs ih =>
    obtain ⟨pieces, hpieces, hjoin⟩ := ih
    obtain ⟨piece, hpiece, hchar⟩ := exists_pieces?_escapeChar c (cs.flatMap escapeChar ++ '"' :: rest)
    refine ⟨piece :: pieces, ?_, ?_⟩
    · rw [List.flatMap_cons, List.append_assoc, hpiece, hpieces]
      rfl
    · rw [hchar, hjoin]
      rfl

/-- A printed string is read back. -/
theorem next?_quote (text : String) (rest : List Char) :
    Token.next? ((quote text).toList ++ rest) = some (.string text, rest) := by
  obtain ⟨pieces, hpieces, hjoin⟩ := exists_pieces?_flatMap_escapeChar text.toList rest
  have hscan : scanString? (text.toList.flatMap escapeChar ++ '"' :: rest) = some (text, rest) := by
    simp only [scanString?, hpieces, Option.bind_eq_bind, Option.bind_some, hjoin, Option.pure_def,
      String.ofList_toList]
  rw [quote, String.toList_ofList, List.cons_append, List.cons_append, List.append_assoc,
    List.singleton_append]
  show (scanString? _).map _ = _
  rw [hscan]
  rfl

/-! ## Integers -/

theorem isGap_iff {c : Char} : isGap c = true ↔ c = ' ' ∨ c = '\t' ∨ c = '\n' ∨ c = '\r' := by
  simp [isGap, or_assoc]

/-- What can stand behind a printed value: nothing, or a text that starts with a comma or with white
space. -/
def Separated (cs : List Char) : Prop :=
  ∀ c ∈ cs.head?, c = ',' ∨ isGap c = true

theorem separated_comma (cs : List Char) : Separated (',' :: cs) := by
  rintro c ⟨⟩
  exact .inl rfl

theorem separated_newline (cs : List Char) : Separated ('\n' :: cs) := by
  rintro c ⟨⟩
  exact .inr rfl

/-- A separated text goes on with no part of a number. -/
theorem Separated.cases {cs : List Char} (h : Separated cs) :
    startsWithDigit cs = false ∧ fractionPart cs = ([], cs) ∧ exponentPart cs = ([], cs) := by
  cases cs with
  | nil => exact ⟨rfl, rfl, rfl⟩
  | cons c cs =>
    have hc := h c rfl
    rw [isGap_iff] at hc
    obtain rfl | rfl | rfl | rfl | rfl := hc <;> exact ⟨rfl, rfl, rfl⟩

theorem wholePart_repr (n : Nat) {rest : List Char} (h : startsWithDigit rest = false) :
    wholePart (n.repr.toList ++ rest) = (n.repr.toList, rest) := by
  have hdigits := Text.isDigit_of_isNumeralOf (Text.isNumeralOf_repr n)
  cases hrepr : n.repr.toList with
  | nil => exact absurd hrepr (Text.ne_nil_of_isNumeralOf (Text.isNumeralOf_repr n))
  | cons c cs =>
    rw [hrepr] at hdigits
    by_cases hzero : c = '0'
    · subst hzero
      cases cs with
      | nil => rfl
      | cons d ds => exact absurd ⟨d, ds, hrepr⟩ (Text.not_hasNeedlessZero_repr n)
    · rw [List.cons_append, wholePart]
      · rw [← List.cons_append, Text.leadingDigits_of_isDigit hdigits h,
          Text.afterDigits_of_isDigit hdigits h]
      · rintro _ ⟨⟩
        exact hzero rfl

theorem scanUnsigned?_repr (negative : Bool) (n : Nat) (hn : negative = true → n ≠ 0)
    {rest : List Char} (h : Separated rest) :
    scanUnsigned? negative (n.repr.toList ++ rest) =
      some (.integer (if negative then -(n : Int) else n), rest) := by
  obtain ⟨hdigit, hfraction, hexponent⟩ := h.cases
  have hnumeral := Text.isNumeralOf_repr n
  have hne : n.repr.toList.isEmpty = false :=
    List.isEmpty_eq_false_iff.mpr (Text.ne_nil_of_isNumeralOf hnumeral)
  have hvalue := Text.ofDigitChars_of_isNumeralOf hnumeral
  have hsign : (negative && n == 0) = false := by
    simpa using hn
  simp only [scanUnsigned?, wholePart_repr n hdigit, hne, hfraction, hexponent, hvalue, hsign,
    List.isEmpty_nil, Bool.and_self, Bool.not_false, Bool.false_eq_true, ↓reduceIte]

theorem next?_of_isDigit {c : Char} (hc : c.isDigit = true) (cs : List Char) :
    Token.next? (c :: cs) =
      (scanUnsigned? false (c :: cs)).map fun read => (.number read.1, read.2) := by
  have hnumber : scanNumber? (c :: cs) = scanUnsigned? false (c :: cs) := by
    rw [scanNumber?]
    rintro _ ⟨⟩
    cases hc
  unfold Token.next?
  split
  case h_11 => rw [hnumber]
  all_goals
    rename_i heq
    cases heq
    cases hc

/-- A printed integer is read back. -/
theorem next?_repr (n : Int) {rest : List Char} (h : Separated rest) :
    Token.next? (n.repr.toList ++ rest) = some (.number (.integer n), rest) := by
  cases n with
  | ofNat n =>
    have hscan := scanUnsigned?_repr false n nofun h
    have hdigit := Text.startsWithDigit_of_isNumeralOf (Text.isNumeralOf_repr n)
    show Token.next? (n.repr.toList ++ rest) = _
    cases hrepr : n.repr.toList with
    | nil => exact absurd hrepr (Text.ne_nil_of_isNumeralOf (Text.isNumeralOf_repr n))
    | cons c cs =>
      rw [hrepr] at hscan hdigit
      rw [List.cons_append, next?_of_isDigit hdigit, ← List.cons_append, hscan]
      rfl
  | negSucc n =>
    have hscan := scanUnsigned?_repr true (n + 1) (fun _ => n.succ_ne_zero) h
    have hrepr : (Int.negSucc n).repr.toList = '-' :: (n + 1).repr.toList := by
      rw [Int.repr, String.toList_append]
      rfl
    rw [hrepr, List.cons_append]
    show (scanUnsigned? true _).map _ = _
    rw [hscan]
    rfl

/-! ## The machine on a text -/

/-- The state that the machine comes to from a state by the tokens of a text. -/
def readFrom? (state : State) (cs : List Char) : Option State :=
  (tokenize? cs).bind fun tokens => tokens.foldlM State.step state

theorem readFrom?_nil (state : State) : readFrom? state [] = some state := by
  rw [readFrom?, tokenize?]
  rfl

theorem readFrom?_gap (state : State) {c : Char} (hc : isGap c = true) (cs : List Char) :
    readFrom? state (c :: cs) = readFrom? state cs := by
  rw [readFrom?, tokenize?, if_pos hc]
  rfl

theorem isGap_eq_false_of_next? {c : Char} {cs rest : List Char} {token : Token}
    (h : Token.next? (c :: cs) = some (token, rest)) : isGap c = false := by
  rw [Bool.eq_false_iff, ne_eq, isGap_iff]
  rintro (rfl | rfl | rfl | rfl) <;> cases h

theorem readFrom?_token {state next : State} {token : Token} {cs rest : List Char}
    (htoken : Token.next? cs = some (token, rest)) (hstep : state.step token = some next) :
    readFrom? state cs = readFrom? next rest := by
  cases cs with
  | nil => cases htoken
  | cons c cs =>
    have hc := isGap_eq_false_of_next? htoken
    have htokens : tokenize? (c :: cs) = (tokenize? rest).map (token :: ·) := by
      rw [tokenize?, if_neg (by simp [hc])]
      split <;> simp_all
    rw [readFrom?, readFrom?, htokens, Option.bind_map]
    congr 1
    funext tokens
    show (token :: tokens).foldlM State.step state = _
    rw [List.foldlM_cons, hstep]
    rfl

theorem readFrom?_margin (state : State) (level : Nat) (cs : List Char) :
    readFrom? state ((margin level).toList ++ cs) = readFrom? state cs := by
  rw [margin, String.toList_ofList]
  induction 2 * level with
  | zero => rfl
  | succ blanks ih => rw [List.replicate_succ, List.cons_append, readFrom?_gap state rfl, ih]

/-- A text takes the machine from a state to another one, if what follows is separated from it. -/
def Leads (text : String) (state next : State) : Prop :=
  ∀ rest, Separated rest → readFrom? state (text.toList ++ rest) = readFrom? next rest

/-- A state takes the first token of a value that stands in these frames. -/
def State.Awaits (state : State) (frames : List Frame) : Prop :=
  ∀ token next, State.start frames token = some next → state.step token = some next

/-- A text takes the machine from in front of a value to behind it, wherever the value stands. -/
def Spells (text : String) (value : Json) : Prop :=
  ∀ state frames, State.Awaits state frames → Leads text state (.complete value frames)

theorem awaits_expectValue (frames : List Frame) : State.Awaits (.expectValue frames) frames :=
  fun _ _ h => h

/-- The bracket that could close an array here starts no value. -/
theorem awaits_itemOrEnd (frames : List Frame) :
    State.Awaits (.itemOrEnd frames) (.item [] :: frames) := by
  intro token next h
  cases token with
  | bracketClose => cases h
  | _ => exact h

theorem Spells.parse?_eq {text : String} {value : Json} (h : Spells text value) :
    parse? (text ++ "\n") = some value := by
  have hread := h _ [] (awaits_expectValue []) ['\n'] (separated_newline [])
  rw [readFrom?_gap _ rfl, readFrom?_nil] at hread
  have hparse : ∀ document : String, parse? document =
      (readFrom? (.expectValue []) document.toList).bind State.result? := by
    intro document
    rw [readFrom?, Option.bind_assoc]
    rfl
  rw [hparse, String.toList_append]
  exact congrArg (Option.bind · State.result?) hread

/-! ## Values of one token -/

theorem spells_of_next? {text : String} {value : Json} {token : Token}
    (htoken : ∀ rest, Separated rest → Token.next? (text.toList ++ rest) = some (token, rest))
    (hstart : ∀ frames, State.start frames token = some (.complete value frames)) :
    Spells text value := by
  intro state frames hawaits rest hrest
  exact readFrom?_token (htoken rest hrest) (hawaits _ _ (hstart frames))

theorem spells_null : Spells "null" .null :=
  spells_of_next? (fun _ _ => rfl) fun _ => rfl

theorem spells_true : Spells "true" (.bool true) :=
  spells_of_next? (fun _ _ => rfl) fun _ => rfl

theorem spells_false : Spells "false" (.bool false) :=
  spells_of_next? (fun _ _ => rfl) fun _ => rfl

theorem spells_string (text : String) : Spells (quote text) (.string text) :=
  spells_of_next? (fun rest _ => next?_quote text rest) fun _ => rfl

theorem spells_integer (n : Int) : Spells n.repr (.int n) :=
  spells_of_next? (fun _ hrest => next?_repr n hrest) fun _ => rfl

/-! ## Values with parts -/

section Parts

variable {α : Type} {opened between : List α → State} {level : Nat} {part : String} {value : α}
  {parts : List String} {values : List α}

/-- The text of parts behind an earlier part: each stands behind a comma, on a line of its own. -/
def furtherParts (level : Nat) (parts : List String) : List Char :=
  parts.flatMap fun part => ',' :: '\n' :: (margin level).toList ++ part.toList

theorem toList_intercalate_parts (level : Nat) (part : String) (parts : List String) :
    (",\n".intercalate ((part :: parts).map fun part => margin level ++ part)).toList =
      (margin level).toList ++ part.toList ++ furtherParts level parts := by
  induction parts generalizing part with
  | nil => simp [furtherParts]
  | cons next parts ih =>
    have hnext := ih next
    have hne : (next :: parts).map (fun part => (margin level ++ part).toList) ≠ [] := by simp
    simp only [String.toList_intercalate, List.map_map, Function.comp_def] at hnext ⊢
    rw [List.map_cons, List.intercalate_cons_of_ne_nil hne, hnext]
    simp [furtherParts]

/-- The machine goes through the further parts of an array or object as it goes through each of them. -/
theorem readFrom?_furtherParts (hcomma : ∀ done, (between done).step .comma = some (opened done))
    (hparts : List.Forall₂ (fun part value =>
      ∀ done, Leads part (opened done) (between (value :: done))) parts values)
    (done : List α) {rest : List Char} (hrest : Separated rest) :
    readFrom? (between done) (furtherParts level parts ++ rest) =
      readFrom? (between (values.reverse ++ done)) rest := by
  induction hparts generalizing done with
  | nil => rfl
  | @cons part value parts values hpart hparts ih =>
    have hseparated : Separated (furtherParts level parts ++ rest) := by
      cases parts with
      | nil => exact hrest
      | cons next parts => exact separated_comma _
    have hcut : furtherParts level (part :: parts) ++ rest =
        ',' :: '\n' :: ((margin level).toList ++ (part.toList ++ (furtherParts level parts ++ rest))) := by
      simp [furtherParts]
    rw [hcut, readFrom?_token rfl (hcomma done), readFrom?_gap _ rfl, readFrom?_margin,
      hpart done _ hseparated, ih, List.reverse_cons, List.append_assoc, List.singleton_append]

theorem toList_bracketed_cons (level : Nat) (opening closing part : String) (parts : List String) :
    (bracketed level opening closing (part :: parts)).toList = opening.toList ++ '\n' ::
      ((margin (level + 1)).toList ++ (part.toList ++ (furtherParts (level + 1) parts ++ '\n' ::
        ((margin level).toList ++ closing.toList)))) := by
  have hparts := toList_intercalate_parts (level + 1) part parts
  rw [bracketed, if_neg (by simp)]
  simp only [String.toList_append, hparts, List.append_assoc]
  rfl

/-- The machine goes from an opening bracket over the parts to the closing one.  It takes the first part from
the state behind the opening bracket and each further part from the state behind a comma. -/
theorem leads_bracketed {opening closing : String} {openToken closeToken : Token}
    {state first last : State}
    (hopening : ∀ cs, Token.next? (opening.toList ++ cs) = some (openToken, cs))
    (hclosing : ∀ cs, Token.next? (closing.toList ++ cs) = some (closeToken, cs))
    (hopen : state.step openToken = some first)
    (hcomma : ∀ done, (between done).step .comma = some (opened done))
    (hparts : List.Forall₂ (fun part value => Leads part first (between [value]) ∧
      ∀ done, Leads part (opened done) (between (value :: done))) parts values)
    (hempty : values = [] → first.step closeToken = some last)
    (hclose : values ≠ [] → (between values.reverse).step closeToken = some last) :
    Leads (bracketed level opening closing parts) state last := by
  intro rest hrest
  cases hparts with
  | nil =>
    have hbrackets : bracketed level opening closing [] = opening ++ closing := rfl
    rw [hbrackets, String.toList_append, List.append_assoc, readFrom?_token (hopening _) hopen,
      readFrom?_token (hclosing _) (hempty rfl)]
  | @cons part value parts values hpart hparts =>
    have hfurther := hparts.imp fun _ _ h => h.2
    have hlast := hclose (List.cons_ne_nil value values)
    rw [List.reverse_cons] at hlast
    simp only [toList_bracketed_cons, List.append_assoc, List.cons_append]
    have hseparated : Separated (furtherParts (level + 1) parts ++
        '\n' :: ((margin level).toList ++ (closing.toList ++ rest))) := by
      cases parts with
      | nil => exact separated_newline _
      | cons next parts => exact separated_comma _
    rw [readFrom?_token (hopening _) hopen, readFrom?_gap _ rfl, readFrom?_margin,
      hpart.1 _ hseparated, readFrom?_furtherParts hcomma hfurther _ (separated_newline _),
      readFrom?_gap _ rfl, readFrom?_margin, readFrom?_token (hclosing _) hlast]

end Parts

theorem spells_array {level : Nat} {parts : List String} {items : List Json}
    (h : List.Forall₂ Spells parts items) :
    Spells (bracketed level "[" "]" parts) (.array items) := by
  intro state frames hawaits
  have hcomma : ∀ done, State.step (.afterItem done frames) .comma =
      some (.expectValue (.item done :: frames)) := fun _ => rfl
  have hparts := h.imp fun part item (hpart : Spells part item) =>
    And.intro (hpart _ _ (awaits_itemOrEnd frames)) fun done =>
      hpart _ _ (awaits_expectValue (.item done :: frames))
  refine leads_bracketed (fun _ => rfl) (fun _ => rfl) (hawaits .bracketOpen _ rfl) hcomma hparts
    ?_ ?_
  · rintro rfl
    rfl
  · intro _
    show some (State.complete (.array items.reverse.reverse) frames) = _
    rw [List.reverse_reverse]

/-- A text is the name of a member and, behind a colon, a text that spells its value. -/
def SpellsMember (text : String) (member : String × Json) : Prop :=
  ∃ inner, text = quote member.1 ++ ": " ++ inner ∧ Spells inner member.2

theorem SpellsMember.leads {text : String} {member : String × Json} (h : SpellsMember text member)
    {state : State} {before : List (String × Json)} {frames : List Frame}
    (hstate : ∀ name, state.step (.string name) = some (.expectColon before name frames)) :
    Leads text state (.afterMember (member :: before) frames) := by
  obtain ⟨name, value⟩ := member
  obtain ⟨inner, rfl, hinner⟩ := h
  intro rest hrest
  have hcolon : ∀ cs, Token.next? (": ".toList ++ cs) = some (.colon, ' ' :: cs) := fun _ => rfl
  simp only [String.toList_append, List.append_assoc]
  rw [readFrom?_token (next?_quote name _) (hstate name), readFrom?_token (hcolon _) rfl,
    readFrom?_gap _ rfl]
  exact hinner _ _ (awaits_expectValue (.member before name :: frames)) rest hrest

theorem spells_object {level : Nat} {parts : List String} {members : List (String × Json)}
    (h : List.Forall₂ SpellsMember parts members) :
    Spells (bracketed level "\x7b" "\x7d" parts) (.object members) := by
  intro state frames hawaits
  have hcomma : ∀ done, State.step (.afterMember done frames) .comma =
      some (.expectName done frames) := fun _ => rfl
  have hfirst : ∀ name, State.step (.memberOrEnd frames) (.string name) =
      some (.expectColon [] name frames) := fun _ => rfl
  have hname : ∀ done name, State.step (.expectName done frames) (.string name) =
      some (.expectColon done name frames) := fun _ _ => rfl
  have hparts := h.imp fun part member (hpart : SpellsMember part member) =>
    And.intro (hpart.leads hfirst) fun done => hpart.leads (hname done)
  refine leads_bracketed (fun _ => rfl) (fun _ => rfl) (hawaits .braceOpen _ rfl) hcomma hparts
    ?_ ?_
  · rintro rfl
    rfl
  · intro _
    show some (State.complete (.object members.reverse.reverse) frames) = _
    rw [List.reverse_reverse]

/-! ## Documents -/

/-- All numbers in a value are integers. -/
inductive Integral : Json → Prop where
  | null : Integral .null
  | bool (value : Bool) : Integral (.bool value)
  | int (n : Int) : Integral (.int n)
  | string (text : String) : Integral (.string text)
  | array {items : List Json} (h : ∀ item ∈ items, Integral item) : Integral (.array items)
  | object {members : List (String × Json)} (h : ∀ member ∈ members, Integral member.2) :
      Integral (.object members)

attribute [simp] Integral.null Integral.int Integral.string

@[simp]
theorem Integral.nat (n : Nat) : Integral (.nat n) := .int n

@[simp]
theorem integral_array_iff {items : List Json} :
    Integral (.array items) ↔ ∀ item ∈ items, Integral item :=
  ⟨fun | .array h => h, .array⟩

@[simp]
theorem integral_object_iff {members : List (String × Json)} :
    Integral (.object members) ↔ ∀ member ∈ members, Integral member.2 :=
  ⟨fun | .object h => h, .object⟩

/-- A value is spelled by its printed form at every level of nesting. -/
theorem spells_prettyAt {value : Json} (h : Integral value) (level : Nat) :
    Spells (prettyAt level value) value := by
  induction h generalizing level with
  | null =>
    rw [prettyAt]
    exact spells_null
  | bool value =>
    cases value <;> rw [prettyAt]
    · exact spells_false
    · exact spells_true
  | int n =>
    rw [Json.int, prettyAt]
    exact spells_integer n
  | string text =>
    rw [prettyAt]
    exact spells_string text
  | array h ih =>
    rw [prettyAt]
    apply spells_array
    rw [List.forall₂_map_left_iff, List.forall₂_same]
    exact fun item hitem => ih item hitem (level + 1)
  | object h ih =>
    rw [prettyAt]
    apply spells_object
    rw [List.forall₂_map_left_iff, List.forall₂_same]
    exact fun member hmember => ⟨_, rfl, ih member hmember (level + 1)⟩

/-- A printed document is read back, also from a line of its own. -/
theorem parse?_pretty {value : Json} (h : Integral value) :
    parse? (value.pretty ++ "\n") = some value :=
  (spells_prettyAt h 0).parse?_eq

end Augury.Json
