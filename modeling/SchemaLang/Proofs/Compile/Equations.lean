import Mathlib.Tactic.Common
import SchemaLang.Compile.Basic

/-
  What the functions of the compiler do on a form of expression, in
  terms of each other and free of the overlaps of their patterns.

  Main declarations:
    * `Compile.expr_binary`
    * `Compile.literal_object`
    * `Compile.case_eq`
    * `Compile.memberList_cons`, `Compile.patternList_cons`,
      `Compile.literalMembers_cons` and `Compile.schemaMembers_cons`
-/

namespace SchemaLang

namespace Compile

attribute [local simp] expr case literal memberList patternList
  literalMembers schemaMembers

variable {compiler : Compiler}
variable {expand : Expand}

------------------------------------------------------------
-- Expressions
------------------------------------------------------------

/- A binary expression other than a case is a range or a name. -/
theorem expr_binary
    {op : BinaryOp}
    (hShift : op ≠ .shr)
    (left right : Expr)
    (note : Note) :
    expr compiler expand ⟨.binary op left right, note⟩ =
      match Limited.of? ⟨.binary op left right, note⟩ with
      | some range => do
        let schema ← expr compiler expand range.operand
        pure (range.apply schema)
      | none => resolve expand ⟨.binary op left right, note⟩ := by
  rw [expr]
  · split
    · rename_i range hRange
      simp only [hRange]
    · rename_i hRange
      simp only [hRange]
  · exact hShift

/- An object literal that is taken as written. -/
theorem literal_object
    (members : List Member)
    (note : Note) :
    literal compiler expand ⟨.object members, note⟩ =
      literalMembers compiler expand .empty members >>= fun fields =>
        pure (.object fields) := by
  simp [Expr.isUndefined, Expr.identifier?, Expr.number?]

/- A case is its condition, and then one object of both sides. -/
theorem case_eq
    (left right : Expr) :
    case compiler expand left right = (do
      let condition ← expr compiler expand left
      let consequence ← (do
        let fields ← spreadInto compiler expand Fields.skeleton left
        let fields ← spreadInto compiler expand fields right
        pure (.object fields))
      pure (condition.setKey "additionalProperties" (.bool true),
        consequence)) := by
  simp

------------------------------------------------------------
-- Members Of Object Literals
------------------------------------------------------------

/- Compile one member into the entries of an object. -/
def memberStep
    (compiler : Compiler)
    (expand : Expand)
    (previous : Option Member)
    (fields : Fields) : Member → Compile Fields
  | .spread ⟨.spread argument, _⟩ =>
    spreadInto compiler expand fields argument
  | .spread e => fail (.unknownForm e.kindName) e.span
  | .property key computed value span comments =>
    propertyInto compiler expand previous fields key computed value span
      comments

theorem memberList_cons
    (previous : Option Member)
    (fields : Fields)
    (member : Member)
    (rest : List Member) :
    memberList compiler expand previous fields (member :: rest) =
      memberStep compiler expand previous fields member >>= fun fields =>
        memberList compiler expand (some member) fields rest := by
  unfold memberStep
  split
  · simp
  · rename_i e hOther
    rw [memberList]
    · rfl
    · exact hOther
  · simp

/- Compile one member, if it is a pattern. -/
def patternStep
    (compiler : Compiler)
    (expand : Expand)
    (patterns : OrderedMap Schema) : Member → Compile (OrderedMap Schema)
  | .property (.regex pattern _) _ value _ _ => do
    let schema ← expr compiler expand value
    pure (patterns.insert pattern schema)
  | _ => pure patterns

theorem patternList_cons
    (patterns : OrderedMap Schema)
    (member : Member)
    (rest : List Member) :
    patternList compiler expand patterns (member :: rest) =
      patternStep compiler expand patterns member >>= fun patterns =>
        patternList compiler expand patterns rest := by
  unfold patternStep
  split
  · simp
  · rename_i hOther
    rw [patternList, pure_bind]
    exact hOther

/- Take one member as it is written. -/
def literalStep
    (compiler : Compiler)
    (expand : Expand)
    (fields : Fields) : Member → Compile Fields
  | .spread e => fail .literalSpread e.span
  | .property key _ value span _ => do
    let name ← check (literalKey key span)
    let schema ← literal compiler expand value
    pure (OrderedMap.insert fields name schema)

theorem literalMembers_cons
    (fields : Fields)
    (member : Member)
    (rest : List Member) :
    literalMembers compiler expand fields (member :: rest) =
      literalStep compiler expand fields member >>= fun fields =>
        literalMembers compiler expand fields rest := by
  cases member with
  | property key computed value span comments => simp [literalStep]
  | spread e =>
      rw [literalMembers]
      rfl

/- Compile one member of an argument that is a map of schemas. -/
def schemaStep
    (compiler : Compiler)
    (expand : Expand)
    (name : String)
    (fields : Fields) : Member → Compile Fields
  | .spread e => fail (.argumentSpread name) e.span
  | .property key _ value span _ => do
    let key ← check (key.propertyName span)
    let schema ← expr compiler expand value
    pure (OrderedMap.insert fields key schema)

theorem schemaMembers_cons
    (name : String)
    (fields : Fields)
    (member : Member)
    (rest : List Member) :
    schemaMembers compiler expand name fields (member :: rest) =
      schemaStep compiler expand name fields member >>= fun fields =>
        schemaMembers compiler expand name fields rest := by
  cases member with
  | property key computed value span comments => simp [schemaStep]
  | spread e =>
      rw [schemaMembers]
      rfl

end Compile

end SchemaLang
