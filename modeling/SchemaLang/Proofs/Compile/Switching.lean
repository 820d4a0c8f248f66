import SchemaLang.Proofs.Compile.Association
import SchemaLang.Proofs.Compile.Spreading
import SchemaLang.Proofs.Validation.Keywords

/-
  Switches. Whichever values schemas accept, as long as `if` and `oneOf`
  are understood as usual, a switch looks for the first case whose
  condition accepts a value, and leaves the value to the consequence of
  that case. The list of conditions at its end is only reached by values
  that none of them accepts, and so accepts nothing.

  Main declarations:
    * `Chain.Obeys` and `Validator.obeys_accepts`
    * `Chain.Selects` and `Chain.accepts_switch_iff`
    * `Chain.behindElse_switch`
    * `Compile.all_eq_cases`
    * `Compile.switch_selects_first`
-/

namespace SchemaLang

------------------------------------------------------------
-- Rules
------------------------------------------------------------

/- Exactly one place of a list holds what has a property. -/
def HoldsOnce {α : Type}
    (holds : α → Prop)
    (list : List α) : Prop :=
  ∃! i : Nat, ∃ a, list[i]? = some a ∧ holds a

namespace HoldsOnce

variable {α : Type}
variable {holds : α → Prop}
variable {a : α}
variable {rest : List α}

theorem not_of_forall
    {list : List α}
    (hNone : ∀ a ∈ list, ¬ holds a) :
    ¬ HoldsOnce holds list := by
  rintro ⟨i, ⟨a, hGet, hHolds⟩, -⟩
  exact hNone a (List.mem_of_getElem? hGet) hHolds

/- If the first element is one, there is no other. -/
theorem cons_iff_of_holds
    (hFirst : holds a) :
    HoldsOnce holds (a :: rest) ↔ ∀ b ∈ rest, ¬ holds b := by
  constructor
  · rintro ⟨i, -, hUnique⟩ b hMember hHolds
    rcases List.mem_iff_getElem?.mp hMember with ⟨j, hGet⟩
    have hZero : 0 = i := hUnique 0 ⟨a, rfl, hFirst⟩
    have hLater : j + 1 = i := hUnique (j + 1) ⟨b, hGet, hHolds⟩
    omega
  · intro hNone
    refine ⟨0, ⟨a, rfl, hFirst⟩, ?_⟩
    rintro i ⟨b, hGet, hHolds⟩
    cases i with
    | zero => rfl
    | succ j =>
        exact absurd hHolds (hNone b (List.mem_of_getElem? hGet))

/- Otherwise the one is behind it. -/
theorem cons_iff_of_not_holds
    (hFirst : ¬ holds a) :
    HoldsOnce holds (a :: rest) ↔ HoldsOnce holds rest := by
  constructor
  · rintro ⟨i, ⟨b, hGet, hHolds⟩, hUnique⟩
    cases i with
    | zero =>
        cases Option.some.inj hGet
        exact absurd hHolds hFirst
    | succ j =>
        refine ⟨j, ⟨b, hGet, hHolds⟩, ?_⟩
        rintro k ⟨c, hOther, hAlso⟩
        exact Nat.succ.inj (hUnique (k + 1) ⟨c, hOther, hAlso⟩)
  · rintro ⟨j, ⟨b, hGet, hHolds⟩, hUnique⟩
    refine ⟨j + 1, ⟨b, hGet, hHolds⟩, ?_⟩
    rintro i ⟨c, hOther, hAlso⟩
    cases i with
    | zero =>
        cases Option.some.inj hOther
        exact absurd hAlso hFirst
    | succ k => exact congrArg Nat.succ (hUnique k ⟨c, hOther, hAlso⟩)

theorem iff_countP
    {test : α → Bool}
    {list : List α} :
    HoldsOnce (test · = true) list ↔ list.countP test = 1 := by
  induction list with
  | nil => exact ⟨fun h => absurd h (not_of_forall nofun), nofun⟩
  | cons a rest ih =>
      by_cases hFirst : test a = true
      · rw [@cons_iff_of_holds α (test · = true) a rest hFirst,
          List.countP_cons_of_pos hFirst, Nat.add_eq_right,
          List.countP_eq_zero]
      · rw [@cons_iff_of_not_holds α (test · = true) a rest hFirst,
          List.countP_cons_of_neg hFirst, ih]

end HoldsOnce

namespace Chain

variable {V : Type}

/-
  Values are accepted by the rules of `if` and of `oneOf`, on schemas
  that say nothing else.
-/
structure Obeys
    (accepts : Schema → V → Prop) : Prop where
  conditional :
    ∀ test consequent alternate v,
      accepts (.ifThenElse test consequent alternate) v ↔
        (accepts test v ∧ accepts consequent v) ∨
          (¬ accepts test v ∧ accepts alternate v)
  exactlyOne :
    ∀ branches v,
      accepts (.object (.single "oneOf" (.array branches))) v ↔
        HoldsOnce (accepts · v) branches

/-
  Some condition accepts a value, and the consequence of the first
  such case does so, too.
-/
def Selects
    (accepts : Schema → V → Prop)
    (cases : List (Schema × Schema))
    (v : V) : Prop :=
  ∃ (i : Nat) (case : Schema × Schema),
    cases[i]? = some case ∧ accepts case.1 v ∧
      (∀ j < i, ∀ earlier, cases[j]? = some earlier →
        ¬ accepts earlier.1 v) ∧
      accepts case.2 v

end Chain

/- The validator goes by these rules. -/
theorem Validator.obeys_accepts
    (validator : Validator) :
    Chain.Obeys fun schema v => validator.accepts schema v = true where
  conditional := by
    intro test consequent alternate v
    rw [accepts_conditional]
    cases validator.accepts test v <;> simp
  exactlyOne := by
    intro branches v
    rw [accepts_oneOf, beq_iff_eq, HoldsOnce.iff_countP]

namespace Chain

------------------------------------------------------------
-- The First Case
------------------------------------------------------------

variable {V : Type}
variable {accepts : Schema → V → Prop}
variable {cases : List (Schema × Schema)}
variable {v : V}

/- A case, and what is tried if its condition does not hold. -/
def tried
    (case : Schema × Schema)
    (rest : Schema) : Schema :=
  .ifThenElse case.1 case.2 rest

/- One of the conditions of cases. -/
def fallback
    (cases : List (Schema × Schema)) : Schema :=
  .object (.single "oneOf" (.array (cases.map Prod.fst)))

theorem switch_eq
    (cases : List (Schema × Schema)) :
    switch cases = cases.foldr tried (fallback cases) := rfl

theorem not_selects_nil :
    ¬ Selects accepts [] v := by
  rintro ⟨i, case, hGet, -⟩
  cases hGet

/- The first case decides, or those behind it do. -/
theorem selects_cons_iff
    {case : Schema × Schema} :
    Selects accepts (case :: cases) v ↔
      (accepts case.1 v ∧ accepts case.2 v) ∨
        (¬ accepts case.1 v ∧ Selects accepts cases v) := by
  constructor
  · rintro ⟨i, chosen, hGet, hCondition, hEarlier, hConsequence⟩
    cases i with
    | zero =>
        cases Option.some.inj hGet
        exact .inl ⟨hCondition, hConsequence⟩
    | succ i =>
        refine .inr ⟨hEarlier 0 (Nat.succ_pos i) case rfl, i, chosen, hGet,
          hCondition, ?_, hConsequence⟩
        intro j hLess
        exact hEarlier (j + 1) (Nat.succ_lt_succ hLess)
  · rintro (⟨hCondition, hConsequence⟩ | ⟨hCondition, i, chosen, hGet,
      hChosen, hEarlier, hConsequence⟩)
    · exact ⟨0, case, rfl, hCondition, by simp, hConsequence⟩
    · refine ⟨i + 1, chosen, hGet, hChosen, ?_, hConsequence⟩
      intro j hLess earlier hOther
      cases j with
      | zero =>
          cases Option.some.inj hOther
          exact hCondition
      | succ j =>
          exact hEarlier j (Nat.lt_of_succ_lt_succ hLess) earlier hOther

/- A value that is selected is accepted by some condition. -/
theorem not_selects_of_forall
    (hNone : ∀ case ∈ cases, ¬ accepts case.1 v) :
    ¬ Selects accepts cases v := by
  rintro ⟨i, case, hGet, hCondition, -⟩
  exact hNone case (List.mem_of_getElem? hGet) hCondition

/-
  The cases in front of any schema. It is reached by the values that no
  condition accepts.
-/
theorem accepts_foldr_tried_iff
    (hObeys : Obeys accepts)
    (last : Schema) :
    accepts (cases.foldr tried last) v ↔
      Selects accepts cases v ∨
        ((∀ case ∈ cases, ¬ accepts case.1 v) ∧ accepts last v) := by
  induction cases with
  | nil => simp [not_selects_nil]
  | cons case rest ih =>
      rw [List.foldr_cons, tried, hObeys.conditional, ih, selects_cons_iff,
        List.forall_mem_cons]
      tauto

/- In a switch, what is reached by such values accepts none of them. -/
theorem accepts_switch_iff
    (hObeys : Obeys accepts) :
    accepts (switch cases) v ↔ Selects accepts cases v := by
  rw [switch_eq, accepts_foldr_tried_iff hObeys]
  refine or_iff_left ?_
  rintro ⟨hNone, hLast⟩
  rw [fallback, hObeys.exactlyOne] at hLast
  refine HoldsOnce.not_of_forall ?_ hLast
  intro condition hCondition
  rcases List.mem_map.mp hCondition with ⟨case, hCase, rfl⟩
  exact hNone case hCase

------------------------------------------------------------
-- The Order Of Cases
------------------------------------------------------------

/- What a schema has behind `else`, and again behind that. -/
def behindElse : (count : Nat) → Schema → Option Schema
  | 0, schema => some schema
  | count + 1, schema => (schema.get? "else").bind (behindElse count)

theorem behindElse_foldr_tried
    {count : Nat}
    (hCount : count ≤ cases.length)
    (last : Schema) :
    behindElse count (cases.foldr tried last) =
      some ((cases.drop count).foldr tried last) := by
  induction count generalizing cases with
  | zero => rfl
  | succ count ih =>
      cases cases with
      | nil => cases hCount
      | cons case rest => exact ih (Nat.le_of_succ_le_succ hCount)

/- Behind as many, the case is the one at that place in the list. -/
theorem behindElse_switch
    {i : Nat}
    {case : Schema × Schema}
    (hGet : cases[i]? = some case) :
    ∃ rest, behindElse i (switch cases) = some (tried case rest) := by
  rcases List.getElem?_eq_some_iff.mp hGet with ⟨hLess, rfl⟩
  refine ⟨(cases.drop (i + 1)).foldr tried (fallback cases), ?_⟩
  rw [switch_eq, behindElse_foldr_tried hLess.le,
    List.drop_eq_getElem_cons hLess, List.foldr_cons]

theorem behindElse_switch_length :
    behindElse cases.length (switch cases) = some (fallback cases) := by
  rw [switch_eq, behindElse_foldr_tried le_rfl, List.drop_length,
    List.foldr_nil]

end Chain

------------------------------------------------------------
-- Compiled Cases
------------------------------------------------------------

namespace Compile

open Chain

variable {compiler : Compiler}
variable {expand : Expand}
variable {es : List Expr}

/- A case that stands alone. -/
def implied
    (case : Schema × Schema) : Schema :=
  .ifThen case.1 case.2

/- The cases of a switch are compiled as they are alone. -/
theorem all_eq_cases
    (hCases : ∀ e ∈ es, isCase e = true) :
    all compiler expand es = (do
      let pairs ← cases compiler expand es
      pure (pairs.map implied)) := by
  induction es with
  | nil =>
      rw [all, cases]
      rfl
  | cons e rest ih =>
      rw [List.forall_mem_cons] at hCases
      have hFirst := hCases.1
      unfold isCase at hFirst
      split at hFirst
      · rename_i left right note
        rw [all, ih hCases.2, cases, expr]
        simp only [bind_assoc, pure_bind, List.map_cons]
        rfl
      · cases hFirst

theorem outcome_cases
    (hCases : ∀ e ∈ es, isCase e = true)
    {registry after : Registry}
    {schemas : List Schema}
    (hCompiled :
      outcome (all compiler expand es) registry = (.ok schemas, after)) :
    ∃ pairs,
      outcome (cases compiler expand es) registry = (.ok pairs, after) ∧
        schemas = pairs.map implied := by
  rw [all_eq_cases hCases, outcome_bind] at hCompiled
  rcases andThen_eq_ok hCompiled with ⟨pairs, between, hPairs, hEnds⟩
  cases hEnds
  exact ⟨pairs, hPairs, rfl⟩

/- A chain of cases is compiled to a switch. -/
theorem expr_switch
    {chain : Whole}
    (hUnmixed : ¬ chain.IsMixed)
    (hSwitch : chain.IsSwitch) :
    expr compiler expand chain.expr = (do
      let pairs ← cases compiler expand chain.operands
      pure (switch pairs)) := by
  have hAll : chain.operands.all isCase = true :=
    List.all_eq_true.mpr hSwitch.2
  rw [expr_of_unmixed hUnmixed, joined, hSwitch.1, hAll]
  rfl

/-
  Let cases be compiled one after the other, each to a condition and a
  consequence. Every chain of them is compiled to the switch of these.
  It has them in their order, and all conditions at its end. A value is
  accepted by it exactly if some condition accepts it, and so does the
  consequence of the first such case; no other value is.
-/
theorem switch_selects_first
    (compiler : Compiler)
    (expand : Expand)
    (es : List Expr)
    (hCases : ∀ e ∈ es, isCase e = true)
    (registry after : Registry)
    (schemas : List Schema)
    (hCompiled :
      outcome (all compiler expand es) registry = (.ok schemas, after)) :
    ∃ pairs : List (Schema × Schema),
      schemas = pairs.map implied ∧
      outcome
          (do
            let pairs ← cases compiler expand es
            pure (switch pairs))
          registry =
        (.ok (switch pairs), after) ∧
      (∀ chain : Whole,
        ¬ chain.IsMixed → chain.op = .or → chain.operands = es →
          outcome (expr compiler expand chain.expr) registry =
            (.ok (switch pairs), after)) ∧
      (∀ i case, pairs[i]? = some case →
        ∃ rest,
          behindElse i (switch pairs) =
            some (.object
              (.of [("if", case.1), ("then", case.2), ("else", rest)]))) ∧
      behindElse pairs.length (switch pairs) =
        some (.object (.single "oneOf" (.array (pairs.map Prod.fst)))) ∧
      ∀ (V : Type) (accepts : Schema → V → Prop),
        Obeys accepts →
          ∀ v,
            (accepts (switch pairs) v ↔ Selects accepts pairs v) ∧
            ((∀ case ∈ pairs, ¬ accepts case.1 v) →
              ¬ accepts (switch pairs) v) := by
  rcases outcome_cases hCases hCompiled with ⟨pairs, hPairs, rfl⟩
  have hSwitch :
      outcome
          (do
            let pairs ← cases compiler expand es
            pure (switch pairs))
          registry =
        (.ok (switch pairs), after) := by
    rw [outcome_bind, hPairs]
    rfl
  refine ⟨pairs, rfl, hSwitch, ?_, fun _ _ => behindElse_switch,
    behindElse_switch_length, ?_⟩
  · rintro chain hUnmixed hOr rfl
    rw [expr_switch hUnmixed ⟨hOr, hCases⟩]
    exact hSwitch
  · intro V accepts hObeys v
    rw [accepts_switch_iff hObeys]
    exact ⟨Iff.rfl, not_selects_of_forall⟩

/- Expressions that yield schemas do so one after the other. -/
theorem yields_all
    {registry : Registry}
    {schemas : List Schema}
    (hYields :
      List.Forall₂
        (fun e schema => Yields registry (expr compiler expand e) schema)
        es schemas) :
    Yields registry (all compiler expand es) schemas := by
  induction hYields with
  | nil =>
      rw [all]
      exact .pure []
  | cons hFirst _ ih =>
      rw [all]
      exact hFirst.bind (ih.bind (.pure _))

theorem implied_injective :
    Function.Injective implied := by
  rintro ⟨condition, consequence⟩ ⟨condition', consequence'⟩ hSame
  simpa [implied] using hSame

/- A case of two object literals. -/
def literalCase
    (left right : List Member) : Expr :=
  ⟨.binary .shr ⟨.object left, {}⟩ ⟨.object right, {}⟩, {}⟩

/- `{"a": int} >> {"b": int}` and `{"a": string} >> {}` -/
def twoCases : List Expr :=
  [literalCase [naming "a" false "int"] [naming "b" false "int"],
    literalCase [naming "a" false "string"] []]

/- The chain of the two. -/
def twoCasesChain : Whole where
  joint := ⟨.or, {}, {}⟩
  left := .operand (twoCases.get ⟨0, by decide⟩) rfl
  right := .operand (twoCases.get ⟨1, by decide⟩) rfl

/- Their conditions and consequences. -/
def twoPairs : List (Schema × Schema) :=
  let text : Schema := .object (.single "type" (.string "string"))
  let object (further : Bool) (properties : Fields) : Schema :=
    .object
      (.of
        [("type", .string "object"),
          ("additionalProperties", .bool further),
          ("required", .strings properties.keys),
          ("properties", .object properties)])
  [(object true (.single "a" integer), object false twoIntegers),
    (object true (.single "a" text), object false (.single "a" text))]

theorem yields_literalCase
    {expand : Expand}
    {registry : Registry}
    {left right : List Member}
    {first second : List Stated}
    (hLeft : List.Forall₂ (States {} expand registry) left first)
    (hRight : List.Forall₂ (States {} expand registry) right second) :
    Yields registry (expr {} expand (literalCase left right))
      (implied
        ((Schema.object (Reconciled.empty.putAll first).toFields).setKey
            "additionalProperties" (.bool true),
          .object ((Reconciled.empty.take
            (Reconciled.empty.putAll first).toFields).take
              (Reconciled.empty.putAll second).toFields).toFields)) := by
  have hCondition := @yields_object {} expand registry _ _ {} hLeft rfl
  have hOther := @yields_object {} expand registry _ _ {} hRight rfl
  exact yields_case (yields_spreadInto hCondition)
    (yields_spreadInto hOther) hCondition {}

theorem yields_twoCases
    (expand : Expand) :
    Yields Registry.initial (all {} expand twoCases)
      (twoPairs.map implied) := by
  have hInt :
      ∀ key, (Key.string key).isPlain = true →
        States {} expand Registry.initial (naming key false "int")
          ⟨key, true, integer⟩ :=
    fun key hKey => states_int hKey false
  have hText :
      States {} expand Registry.initial (naming "a" false "string")
        ⟨"a", true, .object (.single "type" (.string "string"))⟩ :=
    states_naming rfl rfl rfl false
  have hFirst :=
    yields_literalCase (.cons (hInt "a" rfl) .nil)
      (.cons (hInt "b" rfl) .nil)
  have hSecond := yields_literalCase (.cons hText .nil) .nil
  exact yields_all (.cons hFirst (.cons hSecond .nil))

/- A validator for the draft of 2020 that knows no patterns or formats. -/
def plainValidator : Validator :=
  ⟨.draft2020, fun _ _ => true, fun _ _ => true⟩

/-
  An object whose `a` is a text is accepted, as the second case wants
  it; it would not be if it had a `b`, too. Null is not accepted.
-/
theorem switch_selects_first_twoCases :
    (∀ e ∈ twoCases, isCase e = true) ∧
      outcome (all {} (expandDeclared {} Registry.initial) twoCases)
          Registry.initial =
        (.ok (twoPairs.map implied), Registry.initial) ∧
      outcome
          (expr {} (expandDeclared {} Registry.initial) twoCasesChain.expr)
          Registry.initial =
        (.ok (switch twoPairs), Registry.initial) ∧
      plainValidator.accepts (switch twoPairs)
        (.object (.single "a" (.string "text"))) = true ∧
      ¬ plainValidator.accepts (switch twoPairs)
        (.object (.of [("a", .string "text"), ("b", .null)])) = true ∧
      ¬ plainValidator.accepts (switch twoPairs) .null = true := by
  have hCases : ∀ e ∈ twoCases, isCase e = true := by decide
  have hCompiled :=
    yields_twoCases (expandDeclared {} Registry.initial)
  rcases switch_selects_first {} (expandDeclared {} Registry.initial)
      twoCases hCases Registry.initial Registry.initial _ hCompiled with
    ⟨pairs, hPairs, -, hChain, -, -, hAccepts⟩
  cases List.map_injective_iff.mpr implied_injective hPairs
  have hJudged := hAccepts Document _ plainValidator.obeys_accepts
  refine ⟨hCases, hCompiled, hChain twoCasesChain ?_ rfl rfl, ?_, ?_, ?_⟩
  · rintro ⟨joint, hJoint, hOther⟩
    cases List.mem_singleton.mp hJoint
    revert hOther
    decide
  · refine (hJudged _).1.mpr ⟨1, _, rfl, by decide, ?_, by decide⟩
    intro j hLess earlier hEarlier
    cases j with
    | zero =>
        cases hEarlier
        decide
    | succ j => omega
  · decide
  · refine (hJudged .null).2 ?_
    decide

end Compile

end SchemaLang
