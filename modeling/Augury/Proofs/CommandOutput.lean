import Augury.Proofs.NodeEncoding
import Augury.Proofs.PrintedJson
import Augury.Proofs.Reports

/-!
# Reading the output of the program

A job that succeeds prints one JSON document.  Reading the printed text gives the document back, whatever
characters its strings hold, and from the document come the text of the job and its result: the nodes of a
text, the text that it is resolved to, or the total and the dice of a roll (`run_prints_readable`).
-/

set_option autoImplicit false

namespace Augury.Command

open Augury.Prompt (Error Node Resolving Tables parse resolve)
open Augury.Random (Seeded)
open Json (Integral)

/-! ## Documents -/

/-- The program ends well and prints a document of this kind, and nothing else. -/
def Outcome.Prints (outcome : Outcome) (holds : Json → Prop) : Prop :=
  outcome.code = 0 ∧ outcome.stderr = "" ∧
    ∃ document, Json.parse? outcome.stdout = some document ∧ holds document

/-- A document holds a text and its nodes. -/
def HoldsNodes (text : String) (nodes : List Node) (document : Json) : Prop :=
  document.member? "input" = some (.string text) ∧
    ∃ items, document.member? "nodes" = some (.array items) ∧ items.mapM Node.ofJson? = some nodes

/-- A document holds a text and what the text is resolved to. -/
def HoldsResult (text result : String) (document : Json) : Prop :=
  document.member? "input" = some (.string text) ∧
    document.member? "result" = some (.string result)

/-- A document holds an expression of dice and a roll of them. -/
def HoldsRoll (expression : String) (roll : Roll) (document : Json) : Prop :=
  document.member? "expression" = some (.string expression) ∧
    (document.member? "total").bind Json.int? = some roll.total ∧
    ∃ items, document.member? "breakdown" = some (.array items) ∧
      items.mapM Json.word? = some roll.breakdown

theorem prints_ofResult {document : Json} {holds : Json → Prop} (h : Integral document)
    (hholds : holds document) : (Outcome.ofResult (.ok document)).Prints holds :=
  ⟨rfl, rfl, document, Json.parse?_pretty h, hholds⟩

theorem integral_toJson (n : Node) : Integral n.toJson := by
  cases n with
  | text content => simp [Node.toJson, Node.members]
  | choice options => simp [Node.toJson, Node.members]
  | table name => simp [Node.toJson, Node.members]
  | dice d =>
    rcases d with ⟨count, sides, _ | modifier⟩
    · simp [Node.toJson, Node.members, Dice.members]
    · simp [Node.toJson, Node.members, Dice.members, Modifier.toJson, Modifier.members]

theorem mapM_map_eq_some {α β : Type} {encode : α → β} {decode : β → Option α}
    (h : ∀ a, decode (encode a) = some a) (l : List α) : (l.map encode).mapM decode = some l := by
  have hcomp : decode ∘ encode = fun a => pure a := funext h
  rw [List.mapM_map, hcomp, List.mapM_pure, List.map_id']
  rfl

/-! ## The outcomes of successful jobs -/

/-- How the program ends with the nodes of a text. -/
def Outcome.ofNodes (text : String) (nodes : List Node) : Outcome :=
  .ofResult (.ok (.object [("input", .string text), ("nodes", .array (nodes.map Node.toJson))]))

/-- How the program ends with a roll of the dice of an expression. -/
def Outcome.ofRolled (expression : String) : Except Dice.Error Roll → Outcome
  | .error cause => .ofResult (.error (.roll cause))
  | .ok roll => .ofResult (.ok (.object (("expression", .string expression) :: roll.members)))

theorem prints_ofNodes (text : String) (nodes : List Node) :
    (Outcome.ofNodes text nodes).Prints (HoldsNodes text nodes) :=
  prints_ofResult (by simp [integral_toJson])
    ⟨rfl, _, rfl, mapM_map_eq_some Node.ofJson?_toJson nodes⟩

theorem prints_ofResolved (text result : String) :
    (Outcome.ofResolved text (.ok result)).Prints (HoldsResult text result) :=
  prints_ofResult (by simp) ⟨rfl, rfl⟩

theorem prints_ofRolled (expression : String) (roll : Roll) :
    (Outcome.ofRolled expression (.ok roll)).Prints (HoldsRoll expression roll) :=
  prints_ofResult (by simp [Roll.members])
    ⟨rfl, rfl, _, rfl, mapM_map_eq_some Json.word?_nat_toNat roll.breakdown⟩

theorem code_ofResult_error (failure : Failure) : (Outcome.ofResult (.error failure)).code ≠ 0 := by
  show (1 : UInt32) ≠ 0
  decide

/-! ## Runs of the program -/

theorem asks_roll (expression : String) : Asks ["roll", "--", expression] (.roll expression none) :=
  rfl

variable {m : Type → Type} [Monad m] [LawfulMonad m] {arguments : List String} {text : String}
  {seed : Option UInt64}

theorem run_parse_of_parse_eq_ok {nodes : List Node} (h : Asks arguments (.parse text))
    (hparse : parse text = .ok nodes) (env : Environment m) :
    run env arguments = pure (Outcome.ofNodes text nodes) := by
  rw [run_of_asks h]
  simp only [Job.perform, hparse]
  exact map_pure ..

theorem run_roll_of_parse_eq_error {cause : Dice.Error} (h : Asks arguments (.roll text seed))
    (hparse : Dice.parse text = .error cause) (env : Environment m) :
    run env arguments = pure (Outcome.ofResult (.error (.notDice cause))) := by
  rw [run_of_asks h]
  simp only [Job.perform, hparse]
  exact map_pure ..

theorem run_roll_of_parse_eq_ok {d : Dice} (h : Asks arguments (.roll text seed))
    (hparse : Dice.parse text = .ok d) (env : Environment m) :
    run env arguments =
      (fun source => Outcome.ofRolled text (d.roll.run source).1) <$> seededSource env seed := by
  rw [run_of_asks h]
  simp only [Job.perform, hparse]
  apply map_run_lift_bind
  intro source
  cases (d.roll.run source).1 with
  | error cause => exact map_pure ..
  | ok roll => exact map_pure ..

/-- **The output of a job that succeeds is a JSON document that says all of its result.**  For every text, the
arguments that ask for a job on it are accepted.  The document of a text that can be read holds the text and
exactly its nodes.  When a text is resolved, the program ends with what becomes of the text in the tables and
with the seed that it takes from its surroundings; the document for a result holds the text and the result, and
nothing but a result ends well.  When dice are rolled, the document for a roll holds the expression, the total
and every value that was rolled, and again nothing but a roll ends well. -/
theorem run_prints_readable (env : Environment m) (text : String) :
    (Asks ["parse", "--", text] (.parse text) ∧
        Asks ["oracle", "--", text] (.resolve text none none Prompt.defaultLimit) ∧
        Asks ["roll", "--", text] (.roll text none)) ∧
      (∀ nodes, parse text = .ok nodes →
        (Outcome.ofNodes text nodes).Prints (HoldsNodes text nodes) ∧
          ∀ arguments, Asks arguments (.parse text) →
            run env arguments = pure (Outcome.ofNodes text nodes)) ∧
      ((∀ arguments file seed limit, Asks arguments (.resolve text file seed limit) →
          run env arguments = withSurroundings env file seed fun tables source =>
            .ofResolved text ((resolve tables limit text : Resolving Seeded String).run source).1) ∧
        (∀ result, (Outcome.ofResolved text (.ok result)).Prints (HoldsResult text result)) ∧
        (∀ cause, (Outcome.ofResolved text (.error cause)).code ≠ 0) ∧
        ∀ failure, (Outcome.ofResult (.error failure)).code ≠ 0) ∧
      (∀ arguments seed, Asks arguments (.roll text seed) →
        (∀ d, Dice.parse text = .ok d →
          run env arguments =
            (fun source => .ofRolled text (d.roll.run source).1) <$> seededSource env seed) ∧
        ∀ cause, Dice.parse text = .error cause →
          ∃ outcome, run env arguments = pure outcome ∧ outcome.code ≠ 0) ∧
      (∀ roll, (Outcome.ofRolled text (.ok roll)).Prints (HoldsRoll text roll)) ∧
      ∀ cause, (Outcome.ofRolled text (.error cause)).code ≠ 0 := by
  refine ⟨⟨asks_parse text, asks_resolve text, asks_roll text⟩, ?parsed, ⟨?resolved,
    prints_ofResolved text, fun cause => code_ofResult_error _, code_ofResult_error⟩, ?rolled,
    prints_ofRolled text, fun cause => code_ofResult_error _⟩
  case parsed =>
    intro nodes hparse
    exact ⟨prints_ofNodes text nodes, fun arguments hasks => run_parse_of_parse_eq_ok hasks hparse env⟩
  case resolved =>
    intro arguments file seed limit hasks
    exact run_resolve hasks env
  case rolled =>
    intro arguments seed hasks
    refine ⟨fun d hparse => run_roll_of_parse_eq_ok hasks hparse env, fun cause hparse => ?_⟩
    exact ⟨_, run_roll_of_parse_eq_error hasks hparse env, code_ofResult_error _⟩

/-- Quotes, a backslash, a line break, a control character and options without text come back as they are, and
so does a total below zero. -/
theorem run_prints_readable_escaped :
    let env : Environment Id := { file := fun _ => .error .missing, clock := 7 }
    let text := "\"\x7ba||\\\n\x7d\x01é 2d6-20"
    let nodes : List Node := [.text "\"", .choice ["a", "", "\\\n"], .text "\x01é ",
      .dice { count := 2, sides := 6, modifier := some { sign := .minus, value := 20 } }]
    let choices := "\x7b\"|\\\x7d"
    let d : Dice := { count := 2, sides := 6, modifier := some { sign := .minus, value := 20 } }
    (parse text = .ok nodes ∧ run env ["parse", "--", text] = Outcome.ofNodes text nodes ∧
        (Outcome.ofNodes text nodes).Prints (HoldsNodes text nodes)) ∧
      (Asks ["oracle", "--seed=7", choices] (.resolve choices none (some 7) 32) ∧
        run env ["oracle", "--seed=7", choices] = Outcome.ofResolved choices (.ok "\"") ∧
        (Outcome.ofResolved choices (.ok "\"")).Prints (HoldsResult choices "\"")) ∧
      Dice.parse "2d6-20" = .ok d ∧
        run env ["roll", "--", "2d6-20"] = Outcome.ofRolled "2d6-20" (.ok ⟨-16, [3, 1]⟩) ∧
        (Outcome.ofRolled "2d6-20" (.ok ⟨-16, [3, 1]⟩)).Prints
          (HoldsRoll "2d6-20" ⟨-16, [3, 1]⟩) := by
  intro env text nodes choices d
  have hparse : parse text = .ok nodes := by cbv
  have hdice : Dice.parse "2d6-20" = .ok d := by cbv
  have hasks : Asks ["oracle", "--seed=7", choices] (.resolve choices none (some 7) 32) := by cbv
  have hresult : ((resolve (some ∅) 32 choices : Resolving Seeded String).run (Seeded.ofSeed 7)).1 =
      .ok "\"" := by decide +kernel
  have hroll : (d.roll.run (Seeded.ofSeed 7)).1 = .ok ⟨-16, [3, 1]⟩ := by decide +kernel
  obtain ⟨⟨hasksParse, -, -⟩, hparsed, -⟩ := run_prints_readable env text
  obtain ⟨-, -, ⟨hresolved, hshown, -⟩, -⟩ := run_prints_readable env choices
  obtain ⟨⟨-, -, hasksRoll⟩, -, -, hrolled, hrolls, -⟩ := run_prints_readable env "2d6-20"
  obtain ⟨hprints, hruns⟩ := hparsed nodes hparse
  refine ⟨⟨hparse, hruns _ hasksParse, hprints⟩, ⟨hasks, ?_, hshown _⟩, hdice, ?_, hrolls _⟩
  · rw [hresolved _ _ _ _ hasks, ← hresult]
    rfl
  · rw [(hrolled _ _ hasksRoll).1 d hdice, ← hroll]
    rfl

end Augury.Command
