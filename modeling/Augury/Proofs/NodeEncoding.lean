import Augury.Prompt.Encoding
import Augury.Proofs.ObjectMembers

/-!
# Reading nodes from JSON

A node is read from the members of an object that it has itself (`Node.ofJson?_eq_some_iff`), so that it is
read back from its own JSON form.  Which other objects are read as the node is settled by what reading looks
past: the order of members, members that neither the node nor its modifier has, and a modifier that is left
out instead of being `null`.  Once these are evened out, the object has to be the JSON form of the node
(`Node.ofJson?_object_iff_reordered`).

Signs are written as texts here.  An object in the place of a sign can be the long form of a text, which is
another way of writing the same node.
-/

set_option autoImplicit false

namespace Augury

open Json (DistinctNames Reordered)

/-! ## Values -/

namespace Json

variable {value : Json}

theorem text?_eq_some_iff {text : String} : value.text? = some text ↔ value = .string text := by
  cases value <;> simp [text?]

theorem items?_eq_some_iff {items : List Json} :
    value.items? = some items ↔ value = .array items := by
  cases value <;> simp [items?]

theorem int?_eq_some_iff {n : Int} : value.int? = some n ↔ value = .int n := by
  unfold int?
  split <;> simp_all [int]

theorem word?_nat_toNat (word : UInt32) : (Json.nat word.toNat).word? = some word := by
  show (if word.toNat < UInt32.size then some (UInt32.ofNat word.toNat) else none) = some word
  rw [if_pos word.toNat_lt, UInt32.ofNat_toNat]

theorem word?_eq_some_iff {word : UInt32} :
    value.word? = some word ↔ value = .nat word.toNat := by
  constructor
  · intro h
    unfold word? at h
    split at h
    · next n hint =>
      split at h
      · next hn =>
        obtain rfl := Option.some.inj h
        rw [int?_eq_some_iff.mp hint, UInt32.toNat_ofNat_of_lt' hn]
        rfl
      · cases h
    · cases h
  · rintro rfl
    exact word?_nat_toNat word

theorem mapM_text?_eq_some_iff {items : List Json} {texts : List String} :
    items.mapM text? = some texts ↔ items = texts.map .string := by
  induction items generalizing texts with
  | nil => cases texts <;> simp
  | cons item items ih =>
    rw [List.mapM_cons]
    simp only [Option.bind_eq_bind, Option.bind_eq_some_iff, Option.pure_def, Option.some.injEq,
      text?_eq_some_iff, ih]
    cases texts with
    | nil => simp
    | cons text texts =>
      rw [List.map_cons, List.cons.injEq]
      constructor
      · rintro ⟨_, rfl, _, rfl, h⟩
        obtain ⟨rfl, rfl⟩ := List.cons.inj h
        exact ⟨rfl, rfl⟩
      · rintro ⟨rfl, rfl⟩
        exact ⟨text, rfl, texts, rfl, rfl⟩

end Json

/-! ## Modifiers -/

theorem Sign.ofName?_eq_some_iff {name : String} {sign : Sign} :
    Sign.ofName? name = some sign ↔ name = sign.name := by
  constructor
  · intro h
    unfold Sign.ofName? at h
    split at h
    · next hname =>
      cases h
      exact hname
    · split at h
      · next hname =>
        cases h
        exact hname
      · cases h
  · rintro rfl
    cases sign <;> rfl

namespace Modifier

variable {isNothing : Json → Bool} {m : Modifier}

/-- The names of the members that a modifier has. -/
def fieldNames : List String :=
  ["sign", "value"]

theorem ofJson?_eq_some_iff {value : Json} :
    ofJson? isNothing value = some m ↔
      (∃ sign, value.member? "sign" = some sign ∧ Sign.ofJson? isNothing sign = some m.sign) ∧
        value.member? "value" = some (.nat m.value.toNat) := by
  obtain ⟨sign, amount⟩ := m
  simp only [ofJson?, Option.bind_eq_bind, Option.bind_eq_some_iff, Option.pure_def,
    Option.some.injEq, Modifier.mk.injEq, Json.word?_eq_some_iff]
  constructor
  · rintro ⟨written, hwritten, _, hsign, _, hvalue, _, rfl, rfl, rfl⟩
    exact ⟨⟨written, hwritten, hsign⟩, hvalue⟩
  · rintro ⟨⟨written, hwritten, hsign⟩, hvalue⟩
    exact ⟨written, hwritten, sign, hsign, _, hvalue, amount, rfl, rfl, rfl⟩

theorem ofJson?_toJson (m : Modifier) : ofJson? isNothing m.toJson = some m :=
  ofJson?_eq_some_iff.mpr ⟨⟨_, rfl, Sign.ofName?_eq_some_iff.mpr rfl⟩, rfl⟩

/-- A modifier with a text for its sign is read from an object that is its JSON form up to order, once the
other members are left out. -/
theorem ofJson?_object_iff {members : List (String × Json)} (h : DistinctNames members)
    (hsign : ∀ sign, ("sign", sign) ∈ members → ∃ name, sign = .string name) :
    ofJson? isNothing (.object members) = some m ↔
      Reordered ((Json.object members).keep fieldNames) m.toJson := by
  have hnames : m.members.map Prod.fst = fieldNames := rfl
  rw [toJson, Json.reordered_keep_iff h hnames (by decide), ofJson?_eq_some_iff]
  simp only [Modifier.members, Json.member?_eq_some_iff h, List.forall_mem_cons, List.not_mem_nil, false_implies,
    implies_true, and_true, Json.nat, Json.int,
    (Json.rigid_string _).reordered_iff, (Json.rigid_number _).reordered_iff, exists_eq_right]
  refine and_congr_left' ⟨?_, ?_⟩
  · rintro ⟨sign, hmem, hread⟩
    obtain ⟨name, rfl⟩ := hsign sign hmem
    rwa [← Sign.ofName?_eq_some_iff.mp hread]
  · intro hmem
    exact ⟨_, hmem, Sign.ofName?_eq_some_iff.mpr rfl⟩

/-- The form of a modifier as a member of dice. -/
def toMember : Option Modifier → Json
  | none => .null
  | some m => m.toJson

/-- A value is `null` or an object in which no name is repeated and the sign, if there is one, is a text. -/
def IsPlain (value : Json) : Prop :=
  value = .null ∨ ∃ members, value = .object members ∧ DistinctNames members ∧
    ∀ sign, ("sign", sign) ∈ members → ∃ name, sign = .string name

theorem ofMember?_toMember (modifier : Option Modifier) :
    ofMember? isNothing (some (toMember modifier)) = some modifier := by
  cases modifier with
  | none => rfl
  | some m =>
    show (ofJson? isNothing m.toJson).map some = some (some m)
    rw [ofJson?_toJson]
    rfl

/-- A missing modifier is read as `null` is. -/
theorem ofMember?_eq_some_iff {member : Option Json} {modifier : Option Modifier}
    (h : ∀ value ∈ member, IsPlain value) :
    ofMember? isNothing member = some modifier ↔
      Reordered ((member.getD .null).keep fieldNames) (toMember modifier) := by
  have hnull : some none = some modifier ↔ Reordered .null (toMember modifier) := by
    cases modifier with
    | none => exact ⟨fun _ => .refl _, fun _ => rfl⟩
    | some m => exact ⟨nofun, nofun⟩
  cases member with
  | none => exact hnull
  | some value =>
    obtain rfl | ⟨members, rfl, hdistinct, hsign⟩ := h value rfl
    · exact hnull
    · show (ofJson? isNothing (.object members)).map some = some modifier ↔ _
      rw [Option.map_eq_some_iff]
      cases modifier with
      | none =>
        constructor
        · rintro ⟨m, -, hm⟩
          cases hm
        · intro hreordered
          cases Json.rigid_null _ hreordered
      | some m =>
        simp only [Option.some.injEq, exists_eq_right, ofJson?_object_iff hdistinct hsign]
        rfl

end Modifier

theorem Dice.ofMembers?_eq_some_iff {isNothing : Json → Bool} {value : Json} {d : Dice} :
    Dice.ofMembers? isNothing value = some d ↔
      value.member? "count" = some (.nat d.count.toNat) ∧
        value.member? "sides" = some (.nat d.sides.toNat) ∧
        Modifier.ofMember? isNothing (value.member? "modifier") = some d.modifier := by
  obtain ⟨count, sides, modifier⟩ := d
  simp only [Dice.ofMembers?, Option.bind_eq_bind, Option.bind_eq_some_iff, Option.pure_def,
    Option.some.injEq, Dice.mk.injEq, Json.word?_eq_some_iff]
  constructor
  · rintro ⟨_, hcount, _, rfl, _, hsides, _, rfl, _, hmodifier, rfl, rfl, rfl⟩
    exact ⟨hcount, hsides, hmodifier⟩
  · rintro ⟨hcount, hsides, hmodifier⟩
    exact ⟨_, hcount, count, rfl, _, hsides, sides, rfl, modifier, hmodifier, rfl, rfl, rfl⟩

namespace Prompt.Node

/-! ## Nodes -/

/-- What the members of a value have to be for the value to be read as a node. -/
theorem ofJson?_eq_some_iff {value : Json} {n : Node} :
    ofJson? value = some n ↔
      match n with
      | .text content => value.member? "kind" = some (.string "text") ∧
          value.member? "value" = some (.string content)
      | .choice options => value.member? "kind" = some (.string "choice") ∧
          value.member? "options" = some (.array (options.map .string))
      | .table name => value.member? "kind" = some (.string "table") ∧
          value.member? "name" = some (.string name)
      | .dice d => value.member? "kind" = some (.string "dice") ∧
          Dice.ofMembers? Json.isVacant value = some d := by
  constructor
  · intro h
    simp only [ofJson?, Option.bind_eq_bind, Option.bind_eq_some_iff, Json.text?_eq_some_iff] at h
    obtain ⟨_, hkind, kind, rfl, h⟩ := h
    split at h
    case h_1 =>
      simp only [Option.bind_eq_some_iff, Json.text?_eq_some_iff] at h
      obtain ⟨_, hvalue, content, rfl, h⟩ := h
      cases h
      exact ⟨hkind, hvalue⟩
    case h_2 =>
      simp only [Option.bind_eq_some_iff, Json.items?_eq_some_iff, Json.mapM_text?_eq_some_iff] at h
      obtain ⟨_, hvalue, _, rfl, options, rfl, h⟩ := h
      cases h
      exact ⟨hkind, hvalue⟩
    case h_3 =>
      simp only [Option.bind_eq_some_iff, Json.text?_eq_some_iff] at h
      obtain ⟨_, hvalue, name, rfl, h⟩ := h
      cases h
      exact ⟨hkind, hvalue⟩
    case h_4 =>
      simp only [Option.bind_eq_some_iff] at h
      obtain ⟨d, hdice, h⟩ := h
      cases h
      exact ⟨hkind, hdice⟩
    case h_5 => cases h
  · intro h
    cases n with
    | text content => simp [ofJson?, h, Json.text?]
    | choice options =>
      have htexts := Json.mapM_text?_eq_some_iff.mpr (rfl : options.map Json.string = _)
      simp only [ofJson?, h, Json.text?, Json.items?, Option.bind_eq_bind, Option.bind_some, htexts]
      rfl
    | table name => simp [ofJson?, h, Json.text?]
    | dice d => simp [ofJson?, h, Json.text?]

/-- A node is read back from its JSON form. -/
theorem ofJson?_toJson (n : Node) : ofJson? n.toJson = some n := by
  rw [ofJson?_eq_some_iff]
  cases n with
  | text content => exact ⟨rfl, rfl⟩
  | choice options => exact ⟨rfl, rfl⟩
  | table name => exact ⟨rfl, rfl⟩
  | dice d =>
    exact ⟨rfl, Dice.ofMembers?_eq_some_iff.mpr
      ⟨rfl, rfl, Modifier.ofMember?_toMember d.modifier⟩⟩

/-! ## Objects with other members -/

/-- The names of the members that a node has. -/
def fieldNames : Node → List String
  | .text _ => ["kind", "value"]
  | .choice _ => ["kind", "options"]
  | .table _ => ["kind", "name"]
  | .dice _ => ["kind", "count", "sides", "modifier"]

/-- The members of an object, with a modifier that is left out as `null`. -/
def withModifier (members : List (String × Json)) : List (String × Json) :=
  if "modifier" ∈ members.map Prod.fst then members else members ++ [("modifier", .null)]

/-- A member of an object; of a modifier, what it has besides the members of a modifier is left out. -/
def evenMember (member : String × Json) : String × Json :=
  (member.1, if member.1 = "modifier" then member.2.keep Modifier.fieldNames else member.2)

/-- The part of an object that a node is read from. -/
def essence (n : Node) (members : List (String × Json)) : Json :=
  (Json.object ((withModifier members).map evenMember)).keep n.fieldNames

section Objects

variable {members : List (String × Json)} {name : String} {value : Json}

theorem mem_withModifier_iff :
    (name, value) ∈ withModifier members ↔ (name, value) ∈ members ∨
      "modifier" ∉ members.map Prod.fst ∧ name = "modifier" ∧ value = .null := by
  unfold withModifier
  split
  · next hmodifier => simp [hmodifier]
  · next hmodifier => simp [hmodifier]

theorem distinctNames_withModifier (h : DistinctNames members) :
    DistinctNames (withModifier members) := by
  unfold withModifier
  split
  · exact h
  · next hmodifier =>
    rw [DistinctNames, List.map_append, List.nodup_append]
    refine ⟨h, List.nodup_singleton _, ?_⟩
    rintro name hname _ hsingle rfl
    rw [List.mem_singleton.mp hsingle] at hname
    exact hmodifier hname

theorem distinctNames_map_evenMember (h : DistinctNames members) :
    DistinctNames (members.map evenMember) := by
  rw [DistinctNames, List.map_map]
  exact h

theorem mem_map_evenMember_iff :
    (name, value) ∈ members.map evenMember ↔ ∃ given, (name, given) ∈ members ∧
      value = if name = "modifier" then given.keep Modifier.fieldNames else given := by
  simp only [List.mem_map, evenMember, Prod.exists, Prod.mk.injEq]
  constructor
  · rintro ⟨_, given, hmem, rfl, rfl⟩
    exact ⟨given, hmem, rfl⟩
  · rintro ⟨given, hmem, rfl⟩
    exact ⟨name, given, hmem, rfl, rfl⟩

/-- Evening out leaves all members but the modifier as they are. -/
theorem mem_evened_iff (hname : name ≠ "modifier") :
    (name, value) ∈ (withModifier members).map evenMember ↔ (name, value) ∈ members := by
  simp only [mem_map_evenMember_iff, mem_withModifier_iff, hname, ↓reduceIte, false_and, and_false,
    or_false, exists_eq_right']

theorem modifier_mem_evened_iff (h : DistinctNames members) :
    ("modifier", value) ∈ (withModifier members).map evenMember ↔
      value = (((Json.object members).member? "modifier").getD .null).keep Modifier.fieldNames := by
  simp only [mem_map_evenMember_iff, mem_withModifier_iff, ↓reduceIte, true_and]
  cases hmember : (Json.object members).member? "modifier" with
  | none =>
    have hnone := Json.member?_eq_none_iff.mp hmember
    have hmem : ∀ given, ("modifier", given) ∉ members := by
      intro given hgiven
      exact hnone (List.mem_map_of_mem hgiven)
    simp only [hmem, hnone, not_false_eq_true, true_and, false_or, exists_eq_left, Option.getD_none]
  | some given =>
    have hgiven := Json.mem_of_member?_eq_some hmember
    have hname : "modifier" ∈ members.map Prod.fst := List.mem_map_of_mem hgiven
    simp only [hname, not_true_eq_false, false_and, or_false, Option.getD_some]
    constructor
    · rintro ⟨other, hother, rfl⟩
      rw [h.eq_of_mem hother hgiven]
    · rintro rfl
      exact ⟨given, hgiven, rfl⟩

variable {n : Node}

theorem map_fst_members (n : Node) : n.members.map Prod.fst = n.fieldNames := by
  cases n <;> rfl

theorem nodup_fieldNames (n : Node) : n.fieldNames.Nodup := by
  cases n <;> simp [fieldNames]

/-- Each member that the node has is found up to order among the members of an object after evening out. -/
def Found (members fields : List (String × Json)) : Prop :=
  ∀ field ∈ fields, ∃ value,
    (field.1, value) ∈ (withModifier members).map evenMember ∧ Reordered value field.2

theorem reordered_essence_iff (h : DistinctNames members) :
    Reordered (n.essence members) n.toJson ↔ Found members n.members := by
  have hevened := distinctNames_map_evenMember (distinctNames_withModifier h)
  rw [Found, ← Json.reordered_keep_iff hevened n.map_fst_members n.nodup_fieldNames]
  rfl

theorem found_nil : Found members [] := by
  simp [Found]

theorem found_cons_iff {fields : List (String × Json)} (hname : name ≠ "modifier")
    (hvalue : Json.Rigid value) :
    Found members ((name, value) :: fields) ↔ (name, value) ∈ members ∧ Found members fields := by
  simp only [Found, List.forall_mem_cons, mem_evened_iff hname, hvalue.reordered_iff, exists_eq_right]

theorem found_modifier_iff {modifier : Option Modifier} (h : DistinctNames members)
    (hplain : ∀ modifier, ("modifier", modifier) ∈ members → Modifier.IsPlain modifier)
    (isNothing : Json → Bool) :
    Found members [("modifier", Modifier.toMember modifier)] ↔
      Modifier.ofMember? isNothing ((Json.object members).member? "modifier") = some modifier := by
  have hmember : ∀ value ∈ (Json.object members).member? "modifier", Modifier.IsPlain value := by
    intro value hvalue
    exact hplain value (Json.mem_of_member?_eq_some hvalue)
  rw [Modifier.ofMember?_eq_some_iff hmember]
  simp only [Found, List.forall_mem_cons, modifier_mem_evened_iff h, exists_eq_left,
    List.not_mem_nil, false_implies, implies_true, and_true]

theorem ofMembers?_object_eq_some_iff {isNothing : Json → Bool} {d : Dice} (h : DistinctNames members)
    (hplain : ∀ modifier, ("modifier", modifier) ∈ members → Modifier.IsPlain modifier) :
    Dice.ofMembers? isNothing (.object members) = some d ↔ Found members d.members := by
  have hmembers : d.members = [("count", .nat d.count.toNat), ("sides", .nat d.sides.toNat),
      ("modifier", Modifier.toMember d.modifier)] := rfl
  have hnumber : ∀ number : Nat, Json.Rigid (.nat number) := fun number => Json.rigid_number _
  rw [Dice.ofMembers?_eq_some_iff, Json.member?_eq_some_iff h, Json.member?_eq_some_iff h, hmembers,
    found_cons_iff (by decide) (hnumber _), found_cons_iff (by decide) (hnumber _),
    found_modifier_iff h hplain isNothing]

/-- An object is read as the node that it is the JSON form of, up to order and after evening out. -/
theorem ofJson?_object_eq_some_iff (h : DistinctNames members)
    (hplain : ("kind", .string "dice") ∈ members →
      ∀ modifier, ("modifier", modifier) ∈ members → Modifier.IsPlain modifier) :
    ofJson? (.object members) = some n ↔ Reordered (n.essence members) n.toJson := by
  rw [reordered_essence_iff h, ofJson?_eq_some_iff]
  cases n with
  | text content =>
    rw [Node.members, found_cons_iff (by decide) (Json.rigid_string _),
      found_cons_iff (by decide) (Json.rigid_string _), and_iff_left found_nil]
    simp only [Json.member?_eq_some_iff h]
  | choice options =>
    have hoptions : Json.Rigid (.array (options.map .string)) := by
      apply Json.rigid_array
      simp only [List.forall_mem_map, Json.rigid_string, implies_true]
    rw [Node.members, found_cons_iff (by decide) (Json.rigid_string _),
      found_cons_iff (by decide) hoptions, and_iff_left found_nil]
    simp only [Json.member?_eq_some_iff h]
  | table name =>
    rw [Node.members, found_cons_iff (by decide) (Json.rigid_string _),
      found_cons_iff (by decide) (Json.rigid_string _), and_iff_left found_nil]
    simp only [Json.member?_eq_some_iff h]
  | dice d =>
    rw [Node.members, found_cons_iff (by decide) (Json.rigid_string _)]
    simp only [Json.member?_eq_some_iff h]
    exact and_congr_right fun hkind => ofMembers?_object_eq_some_iff h (hplain hkind)

end Objects

/-- **A node is read from what is its JSON form for a reader that looks past the rest.**  Every node is read
back from its JSON form.  An object without repeated names, whose modifier is `null` or an object with a text
for its sign if the object is about dice, is read as a node exactly when it is the JSON form of the node up
to the order of members, once the members that the node and its modifier do not have are left out and a
missing modifier is `null`.  Any other such object is refused. -/
theorem ofJson?_object_iff_reordered :
    (∀ n : Node, ofJson? n.toJson = some n) ∧
      ∀ members : List (String × Json), DistinctNames members →
        (("kind", .string "dice") ∈ members →
          ∀ modifier, ("modifier", modifier) ∈ members → Modifier.IsPlain modifier) →
        (∀ n, ofJson? (.object members) = some n ↔ Reordered (n.essence members) n.toJson) ∧
          ((∀ n : Node, ¬ Reordered (n.essence members) n.toJson) →
            ofJson? (.object members) = none) := by
  refine ⟨ofJson?_toJson, ?_⟩
  intro members hdistinct hplain
  have hiff : ∀ n, ofJson? (.object members) = some n ↔ Reordered (n.essence members) n.toJson :=
    fun n => ofJson?_object_eq_some_iff hdistinct hplain
  refine ⟨hiff, ?_⟩
  intro hnone
  rw [Option.eq_none_iff_forall_ne_some]
  intro n hn
  exact hnone n ((hiff n).mp hn)

/-- Members in another order, a note in the dice and one in their modifier do no harm; a text in the place of
the count does. -/
theorem ofJson?_object_iff_reordered_scrambled :
    let d : Dice := { count := 2, sides := 6, modifier := some { sign := .minus, value := 7 } }
    let modifier := Json.object [("value", .nat 7), ("note", .array [.null]), ("sign", .string "Minus")]
    let members := [("sides", .nat 6), ("modifier", modifier), ("value", .string "x"),
      ("kind", .string "dice"), ("count", .nat 2)]
    let quoted := [("kind", .string "dice"), ("count", .string "2"), ("sides", .nat 6)]
    (DistinctNames members ∧ Modifier.IsPlain modifier ∧
        Reordered ((Node.dice d).essence members) (Node.dice d).toJson ∧
        ofJson? (.object members) = some (.dice d)) ∧
      (∀ n : Node, ¬ Reordered (n.essence quoted) n.toJson) ∧ ofJson? (.object quoted) = none := by
  intro d modifier members quoted
  have hdistinct : DistinctNames members := by simp [DistinctNames, members]
  have hquoted : DistinctNames quoted := by simp [DistinctNames, quoted]
  have hmodifier : Modifier.IsPlain modifier :=
    .inr ⟨_, rfl, by simp [DistinctNames], by simp⟩
  have hplain : ∀ value, ("modifier", value) ∈ members → Modifier.IsPlain value := by
    intro value hvalue
    obtain rfl : value = modifier := by simpa [members] using hvalue
    exact hmodifier
  have hread : ofJson? (.object members) = some (.dice d) := rfl
  have hrefused : ofJson? (.object quoted) = none := rfl
  obtain ⟨-, hobjects⟩ := ofJson?_object_iff_reordered
  obtain ⟨hiff, -⟩ := hobjects members hdistinct fun _ => hplain
  obtain ⟨hquotedIff, hnone⟩ := hobjects quoted hquoted fun _ => by simp [quoted]
  have hunlike : ∀ n : Node, ¬ Reordered (n.essence quoted) n.toJson := by
    intro n hn
    have hsome := (hquotedIff n).mpr hn
    rw [hrefused] at hsome
    cases hsome
  exact ⟨⟨hdistinct, hmodifier, (hiff _).mp hread, hread⟩, hunlike, hnone hunlike⟩

end Prompt.Node

end Augury
