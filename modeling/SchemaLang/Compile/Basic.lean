import SchemaLang.Compile.Chain
import SchemaLang.Compile.Member
import SchemaLang.Compile.Range
import SchemaLang.Compile.Setup
import SchemaLang.Expr.Reference

/-
  This file compiles expressions into schemas. What a declared name
  stands for is compiled by a function that is given from outside,
  so that the recursion here is on the expression alone.

  Key definitions include:
    * `Compile.resolve`
    * `Compile.expr`
    * `Compile.literal`
    * `Compile.evaluate`
-/

namespace SchemaLang

namespace Compile

------------------------------------------------------------
-- Names
------------------------------------------------------------

/- Compile what a declared name stands for, where it is referred to. -/
abbrev Expand := String → Span → Expr → Compile Schema

/- A schema under a name; the names given from the start are no titles. -/
def titled
    (name : String)
    (schema : Schema) : Schema :=
  if Registry.isBuiltin name then schema else schema.setTitle name

/- The schema that a reference stands for. -/
def resolve
    (expand : Expand)
    (e : Expr) : Compile Schema := do
  let name ← check e.referenceName
  let registry ← get
  match registry.get? name with
  | none => fail (.unknownReference name) e.span
  | some (.compiled schema) => pure (titled name schema)
  | some (.source source) =>
    let schema ← expand name e.span source
    pure (titled name schema)

/- Name a schema, and describe it by comments. -/
def register
    (name : String)
    (comments : List Comment)
    (schema : Schema) : Compile Schema := do
  let schema := (titled name schema).describe comments
  define name schema
  pure schema

------------------------------------------------------------
-- Arrays
------------------------------------------------------------

/- The keys of positional items and of those behind them. -/
def tupleKeys : Version → String × String
  | .draft2020 => ("prefixItems", "items")
  | _ => ("items", "additionalItems")

/- The entries of an array, of a fixed length if it is exact. -/
def arrayFields
    (count : Nat)
    (exact : Bool) : Fields :=
  let length : Schema := .number (.integer count)
  if exact then
    .of
      [("type", .string "array"), ("minItems", length),
        ("maxItems", length)]
  else .single "type" (.string "array")

/- Why an array literal is not accepted. -/
def arrayFault?
    (elements : List Expr)
    (exact : Bool) : Option CompileError :=
  match elements.filter Expr.isSpread with
  | [] => none
  | [spread] =>
    if exact then some ⟨.exactSpread, spread.span⟩ else none
  | first :: second :: _ =>
    if exact then some ⟨.exactSpread, first.span⟩
    else some ⟨.secondSpread, second.span⟩

------------------------------------------------------------
-- Literals
------------------------------------------------------------

/- The name of a literal's key. -/
def literalKey
    (key : Key)
    (span : Span) : Except CompileError String :=
  match key with
  | .identifier name => .ok name
  | .string value => .ok value
  | .regex pattern _ => .ok pattern
  | .number _ => .error ⟨.literalKey "NumberLiteral", span⟩
  | .expression e => .error ⟨.literalKey e.kindName, e.span⟩

/- The directive that a key runs, with its name. -/
def directive?
    (compiler : Compiler)
    (name : String) : Option (String × Method) :=
  match name.toList with
  | '$' :: rest =>
    let directive := String.ofList rest
    (compiler.directives.get? directive).map fun method =>
      (directive, method)
  | _ => none

/- The constant schema of a value. -/
def constant
    (value : Schema) : Schema :=
  .object (.single "const" value)

------------------------------------------------------------
-- Expressions
------------------------------------------------------------

mutual

/- Compile an expression. -/
def expr
    (compiler : Compiler)
    (expand : Expand)
    (e : Expr) : Compile Schema :=
  match e with
  | ⟨.assignment op target value, note⟩ =>
    match op with
    | .assign => do
      let name ← check target.referenceName
      let schema ← expr compiler expand value
      register name note.comments.preferred schema
    | .compound _ => fail (.assignOperator op) note.span
  | ⟨.binary .shr left right, _⟩ => do
    let (condition, consequence) ← case compiler expand left right
    pure (.ifThen condition consequence)
  | ⟨.binary op left right, note⟩ =>
    match h : Limited.of? ⟨.binary op left right, note⟩ with
    | some range => do
      have := Limited.sizeOf_of? h
      let schema ← expr compiler expand range.operand
      pure (range.apply schema)
    | none => resolve expand ⟨.binary op left right, note⟩
  | ⟨.identifier name, note⟩ => resolve expand ⟨.identifier name, note⟩
  | ⟨.member object property computed, note⟩ =>
    resolve expand ⟨.member object property computed, note⟩
  | ⟨.null, note⟩ => resolve expand ⟨.null, note⟩
  | ⟨.object members, note⟩ => do
    let fields ← memberList compiler expand none Fields.skeleton members
    let fields ←
      if members.any Member.isPattern then do
        let patterns ← patternList compiler expand .empty members
        pure (Fields.addPatterns fields patterns)
      else pure fields
    pure (Schema.describe note.comments.preferred (.object fields))
  | ⟨.array elements, _⟩ => array compiler expand elements false
  | ⟨.logical op left right, note⟩ => do
    let chain : Expr := ⟨.logical op left right, note⟩
    have := Chain.sizeOf_leaves op left right note
    match Chain.fault? op chain with
    | some error => throw error
    | none =>
      let leaves := Chain.leaves chain
      if op = .or && leaves.all Chain.isCase then do
        let cases ← cases compiler expand (Chain.leaves chain)
        pure (Chain.switch cases)
      else
        match (if op = .or then Chain.constants? leaves else none) with
        | some constants => pure (Chain.enumeration constants)
        | none => do
          let branches ← all compiler expand (Chain.leaves chain)
          pure (.object (.single (Chain.branchKey op) (.array branches)))
  | ⟨.string value, _⟩ => pure (constant (.string value))
  | ⟨.boolean value, _⟩ => pure (constant (.bool value))
  | ⟨.regex pattern _, _⟩ => pure (.matching pattern)
  | ⟨.call callee arguments, note⟩ => call compiler expand callee arguments note
  | ⟨.arrow params body, note⟩ =>
    match params with
    | [param] => do
      let name ← check param.referenceName
      let schema ← expr compiler expand body
      register name note.comments.preferred schema
    | _ => expr compiler expand body
  | ⟨.unary .not argument, note⟩ =>
    match argument with
    | ⟨.unary .not ⟨.object members, _⟩, _⟩ => do
      let fields ← literalMembers compiler expand .empty members
      pure (.object fields)
    | ⟨.unary .not ⟨.array elements, _⟩, _⟩ =>
      array compiler expand elements true
    | ⟨.unary .not operand, _⟩ =>
      fail (.pureOperand operand.kindName) operand.span
    | _ => fail .loneNot note.span
  | ⟨.conditional test consequent alternate, _⟩ => do
    let test' ← expr compiler expand test
    let consequent' ← expr compiler expand consequent
    let alternate' ← expr compiler expand alternate
    pure (.ifThenElse test' consequent' alternate')
  | other =>
    match other.number? with
    | some value => pure (constant (.ofBinary64 value))
    | none => fail (.unknownForm other.kindName) other.span
termination_by 2 * sizeOf e
decreasing_by
  all_goals first
    | omega
    | simp only [Expr.mk.sizeOf_spec, Form.assignment.sizeOf_spec,
        Form.binary.sizeOf_spec, Form.object.sizeOf_spec,
        Form.array.sizeOf_spec, Form.call.sizeOf_spec,
        Form.arrow.sizeOf_spec, Form.unary.sizeOf_spec,
        Form.conditional.sizeOf_spec]
      omega

/- Compile expressions one after the other. -/
def all
    (compiler : Compiler)
    (expand : Expand)
    (es : List Expr) : Compile (List Schema) :=
  match es with
  | [] => pure []
  | e :: rest => do
    let first ← expr compiler expand e
    let others ← all compiler expand rest
    pure (first :: others)
termination_by 2 * sizeOf es
decreasing_by
  all_goals simp only [List.cons.sizeOf_spec]; omega

/- Compile the elements of an array literal. -/
def array
    (compiler : Compiler)
    (expand : Expand)
    (elements : List Expr)
    (exact : Bool) : Compile Schema := do
  let fields := arrayFields elements.length exact
  match elements with
  | [] => pure (.object fields)
  | [⟨.spread argument, note⟩] =>
    if exact then fail .exactSpread note.span
    else
      let schema ← expr compiler expand argument
      pure (.object (OrderedMap.insert fields "contains" schema))
  | [element] =>
    let schema ← expr compiler expand element
    pure (.object (OrderedMap.insert fields "items" schema))
  | elements =>
    match arrayFault? elements exact with
    | some error => throw error
    | none =>
      let (tupleKey, restKey) := tupleKeys compiler.version
      let items ← tuple compiler expand elements
      let fields := OrderedMap.insert fields tupleKey (.array items)
      match ← rest compiler expand elements with
      | some schema => pure (.object (OrderedMap.insert fields restKey schema))
      | none => pure (.object fields)
termination_by 2 * sizeOf elements + 1
decreasing_by
  all_goals first
    | omega
    | simp only [List.cons.sizeOf_spec, Expr.mk.sizeOf_spec,
        Form.spread.sizeOf_spec]
      omega

/- Compile the positional items of an array literal. -/
def tuple
    (compiler : Compiler)
    (expand : Expand)
    (elements : List Expr) : Compile (List Schema) :=
  match elements with
  | [] => pure []
  | ⟨.spread _, _⟩ :: others => tuple compiler expand others
  | element :: others => do
    let first ← expr compiler expand element
    let items ← tuple compiler expand others
    pure (first :: items)
termination_by 2 * sizeOf elements
decreasing_by
  all_goals simp only [List.cons.sizeOf_spec]; omega

/- Compile the first spread of an array literal. -/
def rest
    (compiler : Compiler)
    (expand : Expand)
    (elements : List Expr) : Compile (Option Schema) :=
  match elements with
  | [] => pure none
  | ⟨.spread argument, _⟩ :: _ => do
    let schema ← expr compiler expand argument
    pure (some schema)
  | _ :: others => rest compiler expand others
termination_by 2 * sizeOf elements
decreasing_by
  all_goals
    simp only [List.cons.sizeOf_spec, Expr.mk.sizeOf_spec,
      Form.spread.sizeOf_spec]
    omega

/-
  Compile a case. Its condition admits further properties, and its
  consequence is both sides spread into one object.
-/
def case
    (compiler : Compiler)
    (expand : Expand)
    (left right : Expr) : Compile (Schema × Schema) := do
  let condition ← expr compiler expand left
  let fields ← spreadInto compiler expand Fields.skeleton left
  let fields ← spreadInto compiler expand fields right
  pure (condition.setKey "additionalProperties" (.bool true), .object fields)
termination_by 2 * (sizeOf left + sizeOf right) + 2
decreasing_by
  all_goals omega

/- Compile the cases of a switch. -/
def cases
    (compiler : Compiler)
    (expand : Expand)
    (es : List Expr) : Compile (List (Schema × Schema)) :=
  match es with
  | [] => pure []
  | ⟨.binary _ left right, _⟩ :: others => do
    let first ← case compiler expand left right
    let more ← cases compiler expand others
    pure (first :: more)
  | _ :: others => cases compiler expand others
termination_by 2 * sizeOf es
decreasing_by
  all_goals
    simp only [List.cons.sizeOf_spec, Expr.mk.sizeOf_spec,
      Form.binary.sizeOf_spec]
    omega

/-
  Compile the members of an object literal in turn, apart from the
  patterns.
-/
def memberList
    (compiler : Compiler)
    (expand : Expand)
    (previous : Option Member)
    (fields : Fields)
    (members : List Member) : Compile Fields :=
  match members with
  | [] => pure fields
  | .spread ⟨.spread argument, note⟩ :: others => do
    let fields ← spreadInto compiler expand fields argument
    memberList compiler expand (some (.spread ⟨.spread argument, note⟩))
      fields others
  | .spread e :: _ => fail (.unknownForm e.kindName) e.span
  | .property key computed value span comments :: others => do
    let fields ←
      (have _ := key.sizeOf_pos
       propertyInto compiler expand previous fields key computed value span
        comments)
    memberList compiler expand
      (some (.property key computed value span comments)) fields others
termination_by 2 * sizeOf members
decreasing_by
  all_goals
    simp only [List.cons.sizeOf_spec, Member.spread.sizeOf_spec,
      Member.property.sizeOf_spec, Bool.sizeOf_eq_one, Expr.mk.sizeOf_spec,
      Form.spread.sizeOf_spec]
    omega

/- Compile one property into the entries of an object. -/
def propertyInto
    (compiler : Compiler)
    (expand : Expand)
    (previous : Option Member)
    (fields : Fields)
    (key : Key)
    (computed : Bool)
    (value : Expr)
    (span : Span)
    (comments : Comments) : Compile Fields :=
  match key with
  | .regex _ _ => pure fields
  | key => do
    let name ← check (key.propertyName span)
    match directive? compiler name with
    | some (directive, method) =>
      let result ←
        run compiler expand method (.object fields) ⟨directive, [value], span⟩
      match result with
      | .object fields => pure fields
      | _ => fail (.noObject name) span
    | none =>
      if value.isUndefined then
        pure (Fields.removeProperty (Fields.toggleRequired fields name false) name)
      else do
        let fields := Fields.toggleRequired fields name !computed
        let schema ← expr compiler expand value
        let (fields, schema) := Member.describe fields schema comments previous
        pure (Fields.insertProperty fields name schema)
termination_by 2 * sizeOf value + 7
decreasing_by
  all_goals first
    | omega
    | simp only [List.cons.sizeOf_spec, List.nil.sizeOf_spec]; omega

/- Compile the patterns of an object literal. -/
def patternList
    (compiler : Compiler)
    (expand : Expand)
    (patterns : OrderedMap Schema)
    (members : List Member) : Compile (OrderedMap Schema) :=
  match members with
  | [] => pure patterns
  | .property (.regex pattern _) _ value _ _ :: others => do
    let schema ← expr compiler expand value
    patternList compiler expand (patterns.insert pattern schema) others
  | _ :: others => patternList compiler expand patterns others
termination_by 2 * sizeOf members
decreasing_by
  all_goals
    simp only [List.cons.sizeOf_spec, Member.property.sizeOf_spec]; omega

/-
  Spread an argument into the entries of an object. A literal sets
  keys as they are written; any other schema is merged.
-/
def spreadInto
    (compiler : Compiler)
    (expand : Expand)
    (fields : Fields)
    (argument : Expr) : Compile Fields :=
  match argument with
  | ⟨.unary .not ⟨.unary .not ⟨.object members, _⟩, _⟩, _⟩ => do
    let entries ← literalMembers compiler expand .empty members
    pure (entries.toList.foldl
      (fun fields entry => Fields.applyEntry fields entry.1 entry.2) fields)
  | argument => do
    let source ← expr compiler expand argument
    check (Fields.merge fields [source] argument.span)
termination_by 2 * sizeOf argument + 1
decreasing_by
  all_goals first
    | omega
    | simp only [Expr.mk.sizeOf_spec, Form.unary.sizeOf_spec,
        Form.object.sizeOf_spec]
      omega

/- Take an expression as it is written; names are resolved. -/
def literal
    (compiler : Compiler)
    (expand : Expand)
    (e : Expr) : Compile Schema :=
  if e.isUndefined then pure (.removal e.span)
  else
    match e.number? with
    | some value => pure (.ofBinary64 value)
    | none =>
      match e with
      | ⟨.object members, _⟩ => do
        let fields ← literalMembers compiler expand .empty members
        pure (.object fields)
      | ⟨.array elements, _⟩ => do
        let items ← literalAll compiler expand elements
        pure (.array items)
      | ⟨.string value, _⟩ => pure (.string value)
      | ⟨.boolean value, _⟩ => pure (.bool value)
      | ⟨.null, _⟩ => pure .null
      | ⟨.identifier name, note⟩ => resolve expand ⟨.identifier name, note⟩
      | ⟨.member object property computed, note⟩ =>
        resolve expand ⟨.member object property computed, note⟩
      | ⟨.binary op left right, note⟩ =>
        resolve expand ⟨.binary op left right, note⟩
      | ⟨.call callee arguments, note⟩ =>
        call compiler expand callee arguments note
      | other => fail (.unknownForm other.kindName) other.span
termination_by 2 * sizeOf e + 1
decreasing_by
  all_goals
    simp only [Expr.mk.sizeOf_spec, Form.object.sizeOf_spec,
      Form.array.sizeOf_spec, Form.call.sizeOf_spec]
    omega

/- Take expressions as they are written. -/
def literalAll
    (compiler : Compiler)
    (expand : Expand)
    (es : List Expr) : Compile (List Schema) :=
  match es with
  | [] => pure []
  | e :: others => do
    let first ← literal compiler expand e
    let more ← literalAll compiler expand others
    pure (first :: more)
termination_by 2 * sizeOf es
decreasing_by
  all_goals simp only [List.cons.sizeOf_spec]; omega

/- Take the members of an object literal as they are written. -/
def literalMembers
    (compiler : Compiler)
    (expand : Expand)
    (fields : Fields)
    (members : List Member) : Compile Fields :=
  match members with
  | [] => pure fields
  | .spread e :: _ => fail .literalSpread e.span
  | .property key _ value span _ :: others => do
    let name ← check (literalKey key span)
    let schema ← literal compiler expand value
    literalMembers compiler expand (fields.insert name schema) others
termination_by 2 * sizeOf members
decreasing_by
  all_goals
    simp only [List.cons.sizeOf_spec, Member.property.sizeOf_spec]; omega

/- Take the values of an object literal's properties as written. -/
def literalValues
    (compiler : Compiler)
    (expand : Expand)
    (members : List Member) : Compile (List Schema) :=
  match members with
  | [] => pure []
  | .spread _ :: others => literalValues compiler expand others
  | .property _ _ value _ _ :: others => do
    let first ← literal compiler expand value
    let more ← literalValues compiler expand others
    pure (first :: more)
termination_by 2 * sizeOf members
decreasing_by
  all_goals
    simp only [List.cons.sizeOf_spec, Member.property.sizeOf_spec]; omega

/- Compile a call of a function or a method. -/
def call
    (compiler : Compiler)
    (expand : Expand)
    (callee : Expr)
    (arguments : List Expr)
    (note : Note) : Compile Schema :=
  match callee with
  | ⟨.identifier name, calleeNote⟩ =>
    match compiler.functions.get? name with
    | none => fail (.unknownFunction name) calleeNote.span
    | some function => do
      let site : Call := ⟨name, arguments, note.span⟩
      let result ← evaluate compiler expand function.demand site
      check (function.finish site result)
  | ⟨.member object property false, _⟩ =>
    match property.identifier? with
    | none => fail (.unknownForm property.kindName) property.span
    | some name => do
      let receiver ← expr compiler expand object
      match compiler.methods.get? name with
      | none => fail (.unknownMethod name) property.span
      | some method =>
        let result ←
          run compiler expand method receiver ⟨name, arguments, note.span⟩
        if result.isFalsy then fail (.noSchema name) note.span
        else pure result.stripNames
  | other => fail (.callee other.kindName) other.span
termination_by 2 * (sizeOf callee + sizeOf arguments)
decreasing_by
  all_goals
    simp only [Expr.mk.sizeOf_spec, Form.identifier.sizeOf_spec,
      Form.member.sizeOf_spec]
    omega

/- Run a method on a schema. -/
def run
    (compiler : Compiler)
    (expand : Expand)
    (method : Method)
    (receiver : Schema)
    (site : Call) : Compile Schema := do
  check (method.admits receiver site)
  let result ← evaluate compiler expand method.demand site
  check (method.finish receiver site result)
termination_by 2 * sizeOf site.args + 2
decreasing_by
  all_goals omega

/- Turn arguments into what an operation demands. -/
def evaluate
    (compiler : Compiler)
    (expand : Expand)
    (demand : Demand)
    (site : Call) : Compile demand.Result :=
  match demand, site with
  | .nothing, _ => pure ()
  | .value reading, ⟨name, [arg], span⟩ =>
    readArg compiler expand name span reading arg
  | .value _, site => throw (site.error .oneArgument)
  | .schemas, site => do
    check site.atLeastOne
    all compiler expand site.args
  | .entries, ⟨_, [⟨.object members, _⟩], _⟩ => do
    let names ← check (Call.memberNames members)
    let values ← literalValues compiler expand members
    pure (names.zip values)
  | .entries, ⟨name, [key, value], span⟩ => do
    let target ← check (Call.firstString ⟨name, [key, value], span⟩ key)
    let schema ← literal compiler expand value
    pure [(target, schema)]
  | .entries, site => throw (site.error site.entryFault)
  | .definitions, ⟨name, first :: others, span⟩ => do
    let target ← check (Call.firstString ⟨name, first :: others, span⟩ first)
    definitions compiler expand target (.object .empty) others
  | .definitions, site => throw (site.error .atLeastOne)
termination_by 2 * sizeOf site.args + 1
decreasing_by
  all_goals first
    | omega
    | simp only [List.cons.sizeOf_spec, List.nil.sizeOf_spec,
        Expr.mk.sizeOf_spec, Form.object.sizeOf_spec]
      omega

/- Turn the only argument of a call into a schema. -/
def readArg
    (compiler : Compiler)
    (expand : Expand)
    (name : String)
    (span : Span)
    (reading : Reading)
    (arg : Expr) : Compile Schema :=
  let notObject : CompileError := ⟨.argument name .firstObject, span⟩
  match reading, arg with
  | .schema, arg => expr compiler expand arg
  | .flagOrSchema, ⟨.boolean value, _⟩ => pure (.bool value)
  | .flagOrSchema, arg => expr compiler expand arg
  | .items, ⟨.array elements, _⟩ => do
    let items ← all compiler expand elements
    pure (.array items)
  | .items, arg => expr compiler expand arg
  | .schemaMap, ⟨.call callee arguments, note⟩ => do
    let schema ← call compiler expand callee arguments note
    if schema.isMap then pure schema else throw notObject
  | .schemaMap, ⟨.object members, _⟩ => do
    let fields ← schemaMembers compiler expand name .empty members
    pure (.object fields)
  | .schemaMap, _ => throw notObject
  | .literal, arg => literal compiler expand arg
  | .literalObject, ⟨.object members, _⟩ => do
    let fields ← literalMembers compiler expand .empty members
    pure (.object fields)
  | .literalObject, _ => throw notObject
termination_by 2 * sizeOf arg + 2
decreasing_by
  all_goals first
    | omega
    | simp only [Expr.mk.sizeOf_spec, Form.array.sizeOf_spec,
        Form.call.sizeOf_spec, Form.object.sizeOf_spec]
      omega

/- Compile the values of an object literal that is an argument. -/
def schemaMembers
    (compiler : Compiler)
    (expand : Expand)
    (name : String)
    (fields : Fields)
    (members : List Member) : Compile Fields :=
  match members with
  | [] => pure fields
  | .spread e :: _ => fail (.argumentSpread name) e.span
  | .property key _ value span _ :: others => do
    let key ← check (key.propertyName span)
    let schema ← expr compiler expand value
    schemaMembers compiler expand name (fields.insert key schema) others
termination_by 2 * sizeOf members
decreasing_by
  all_goals
    simp only [List.cons.sizeOf_spec, Member.property.sizeOf_spec]; omega

/- Compile expressions in turn, each under the same name. -/
def definitions
    (compiler : Compiler)
    (expand : Expand)
    (name : String)
    (last : Schema)
    (es : List Expr) : Compile Schema :=
  match es with
  | [] => pure last
  | e :: others => do
    let schema ← expr compiler expand e
    define name schema
    definitions compiler expand name schema others
termination_by 2 * sizeOf es
decreasing_by
  all_goals simp only [List.cons.sizeOf_spec]; omega

end

end Compile

end SchemaLang
