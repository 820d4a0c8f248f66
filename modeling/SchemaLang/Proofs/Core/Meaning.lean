import SchemaLang.Expr.Reference
import SchemaLang.Proofs.Compile.Leaves
import SchemaLang.Proofs.Compile.Plain
import SchemaLang.Proofs.Validation.Rules
import SchemaLang.Registry.Builtin

/-
  The core of the language, and what its expressions say about
  documents. The meaning of an expression is read off the
  expression, without regard to how it is compiled.

  Main declarations:
    * `Expr.isCore`
    * `Expr.Means`
-/

namespace SchemaLang

------------------------------------------------------------
-- The Core
------------------------------------------------------------

namespace Expr

/- Whether an expression is the name of a schema given from the start. -/
def isBuiltinName
    (e : Expr) : Bool :=
  match e.referenceName with
  | .ok name => Registry.isBuiltin name
  | .error _ => false

mutual

/- Whether an expression belongs to the core. -/
def isCore : Expr → Bool
  | ⟨.identifier name, note⟩ => isBuiltinName ⟨.identifier name, note⟩
  | ⟨.null, _⟩ => true
  | ⟨.binary op left right, note⟩ => isBuiltinName ⟨.binary op left right, note⟩
  | ⟨.number value, _⟩ => value.isFinite
  | ⟨.unary .neg ⟨.number value, _⟩, _⟩ => value.isFinite
  | ⟨.string _, _⟩ => true
  | ⟨.boolean _, _⟩ => true
  | ⟨.object members, _⟩ => membersAreCore members
  | ⟨.array elements, _⟩ =>
    elementsAreCore elements && (elements.filter isSpread).length ≤ 1
  | ⟨.unary .not ⟨.unary .not ⟨.array elements, _⟩, _⟩, _⟩ => allAreCore elements
  | ⟨.logical op left right, _⟩ =>
    op != .nullish && Chain.admits op left && Chain.admits op right &&
      isCore left && isCore right
  | ⟨.conditional test consequent alternate, _⟩ =>
    isCore test && isCore consequent && isCore alternate
  | _ => false

/- Whether all expressions belong to the core. -/
def allAreCore : List Expr → Bool
  | [] => true
  | e :: rest => isCore e && allAreCore rest

/- Whether all elements do, or are spreads of some that do. -/
def elementsAreCore : List Expr → Bool
  | [] => true
  | ⟨.spread argument, _⟩ :: rest => isCore argument && elementsAreCore rest
  | e :: rest => isCore e && elementsAreCore rest

/- Whether all members are plain properties with values that do. -/
def membersAreCore : List Member → Bool
  | [] => true
  | .property key _ value _ _ :: rest =>
    key.isPlain && isCore value && membersAreCore rest
  | .spread _ :: _ => false

end

end Expr

------------------------------------------------------------
-- Meaning
------------------------------------------------------------

/- What an element holds: the argument of a spread, or itself. -/
def Expr.content : Expr → Expr
  | ⟨.spread argument, _⟩ => argument
  | e => e

theorem Expr.content_of_not_isSpread
    {e : Expr}
    (hSpread : ¬ e.isSpread = true) :
    e.content = e := by
  unfold content
  split
  · exact absurd rfl hSpread
  · rfl

/- What an element of an array literal says about items. -/
structure Expr.Element where
  isSpread : Bool
  means : Document → Prop

/- What a member of an object literal says about the value of a name. -/
structure Expr.Entry where
  name : String
  computed : Bool
  means : Document → Prop

namespace Expr

/- The last of the entries with a name. -/
def lastEntry?
    (entries : List Entry)
    (name : String) : Option Entry :=
  (entries.filter fun entry => entry.name == name).getLast?

/-
  An object that has all names whose last entry is not computed,
  has no names without an entry, and whose values are as the last
  entries of their names say.
-/
def IsObject
    (entries : List Entry)
    (v : Document) : Prop :=
  ∃ fields,
    v = .object fields ∧
      (∀ name entry, lastEntry? entries name = some entry →
        entry.computed = false → name ∈ fields.keys) ∧
      ∀ field ∈ fields.toList, ∃ entry,
        lastEntry? entries field.1 = some entry ∧ entry.means field.2

/-
  An array whose items are as the elements at their places say, and
  behind these as the spread says, if there is one.
-/
def IsTuple
    (elements : List Element)
    (v : Document) : Prop :=
  let places := elements.filter (!·.isSpread)
  let spreads := elements.filter (·.isSpread)
  ∃ items,
    v = .array items ∧
      ∀ (i : Nat) (item : Document), items[i]? = some item →
        match places[i]? with
        | some element => element.means item
        | none => ∀ spread ∈ spreads, spread.means item

/- An array as the elements of a literal say. -/
def IsArray
    (elements : List Element)
    (v : Document) : Prop :=
  match elements with
  | [element] =>
    ∃ items, v = .array items ∧
      if element.isSpread then ∃ item ∈ items, element.means item
      else ∀ item ∈ items, element.means item
  | elements => IsTuple elements v

/- An array of as many items as there are elements, each as they say. -/
def IsExactArray
    (elements : List (Document → Prop))
    (v : Document) : Prop :=
  ∃ items, v = .array items ∧
    List.Forall₂ (fun element item => element item) elements items

/- A document as the schema of a name given from the start says. -/
def IsNamed
    (validator : Validator)
    (e : Expr)
    (v : Document) : Prop :=
  ∃ name schema,
    e.referenceName = .ok name ∧
      Registry.builtins.get? name = some schema ∧
        validator.accepts schema v = true

/- A number with a value. -/
def IsNumber
    (value : ℚ)
    (v : Document) : Prop :=
  ∃ n, v = .number n ∧ n.value = value

mutual

/- What an expression of the core says about a document. -/
def Means
    (validator : Validator) : Expr → Document → Prop
  | ⟨.identifier name, note⟩ => IsNamed validator ⟨.identifier name, note⟩
  | ⟨.null, note⟩ => IsNamed validator ⟨.null, note⟩
  | ⟨.binary op left right, note⟩ =>
    IsNamed validator ⟨.binary op left right, note⟩
  | ⟨.number value, _⟩ => IsNumber value.value
  | ⟨.unary .neg ⟨.number value, _⟩, _⟩ => IsNumber (-value.value)
  | ⟨.string value, _⟩ => fun v => v = .string value
  | ⟨.boolean value, _⟩ => fun v => v = .bool value
  | ⟨.object members, _⟩ => IsObject (entries validator members)
  | ⟨.array elements, _⟩ => IsArray (elementsOf validator elements)
  | ⟨.unary .not ⟨.unary .not ⟨.array elements, _⟩, _⟩, _⟩ =>
    IsExactArray (meanings validator elements)
  | ⟨.logical .or left right, _⟩ => fun v =>
    Means validator left v ∨ Means validator right v
  | ⟨.logical .and left right, _⟩ => fun v =>
    Means validator left v ∧ Means validator right v
  | ⟨.conditional test consequent alternate, _⟩ => fun v =>
    (Means validator test v → Means validator consequent v) ∧
      (¬ Means validator test v → Means validator alternate v)
  | _ => fun _ => False

/- What expressions say, one by one. -/
def meanings
    (validator : Validator) : List Expr → List (Document → Prop)
  | [] => []
  | e :: rest => Means validator e :: meanings validator rest

/- What the elements of an array literal say. -/
def elementsOf
    (validator : Validator) : List Expr → List Element
  | [] => []
  | ⟨.spread argument, _⟩ :: rest =>
    ⟨true, Means validator argument⟩ :: elementsOf validator rest
  | e :: rest => ⟨false, Means validator e⟩ :: elementsOf validator rest

/- What the members of an object literal say. -/
def entries
    (validator : Validator) : List Member → List Entry
  | [] => []
  | .property key computed value _ _ :: rest =>
    match key.name? with
    | some name =>
      ⟨name, computed, Means validator value⟩ :: entries validator rest
    | none => entries validator rest
  | .spread _ :: rest => entries validator rest

end

attribute [simp] Means meanings elementsOf entries

end Expr

end SchemaLang
