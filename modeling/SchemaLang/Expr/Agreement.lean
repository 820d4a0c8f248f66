import SchemaLang.Expr.Basic

/-
  This file compares expression trees. Two trees have the same
  structure when they differ at most in how they were written:
  in places, comments, parentheses and in whether a name used as
  a key is an identifier, a string or a number. An exact
  comparison lets none of these differ.

  Key definitions include:
    * `Expr.agree`
    * `Expr.sameStructure`
    * `Expr.identical`
-/

namespace SchemaLang

mutual

/- Whether two expressions agree, exactly or in structure. -/
def Expr.agree
    (exact : Bool) : Expr → Expr → Bool
  | ⟨f, m⟩, ⟨g, n⟩ => (!exact || m == n) && Form.agree exact f g
termination_by structural a => a

/- Whether two forms agree. -/
def Form.agree
    (exact : Bool) : Form → Form → Bool
  | .assignment o t v, .assignment o' t' v' =>
    o == o' && Expr.agree exact t t' && Expr.agree exact v v'
  | .binary o l r, .binary o' l' r' =>
    o == o' && Expr.agree exact l l' && Expr.agree exact r r'
  | .logical o l r, .logical o' l' r' =>
    o == o' && Expr.agree exact l l' && Expr.agree exact r r'
  | .unary o a, .unary o' a' => o == o' && Expr.agree exact a a'
  | .identifier a, .identifier b => a == b
  | .member o p c, .member o' p' c' =>
    c == c' && Expr.agree exact o o' && Expr.agree exact p p'
  | .object a, .object b => Member.agreeAll exact a b
  | .array a, .array b => Expr.agreeAll exact a b
  | .number a, .number b => a.same b
  | .string a, .string b => a == b
  | .boolean a, .boolean b => a == b
  | .null, .null => true
  | .regex p f, .regex p' f' => p == p' && f == f'
  | .call c a, .call c' a' =>
    Expr.agree exact c c' && Expr.agreeAll exact a a'
  | .arrow p b, .arrow p' b' =>
    Expr.agreeAll exact p p' && Expr.agree exact b b'
  | .conditional t c a, .conditional t' c' a' =>
    Expr.agree exact t t' && Expr.agree exact c c' &&
      Expr.agree exact a a'
  | .spread a, .spread b => Expr.agree exact a b
  | _, _ => false
termination_by structural a => a

/- Whether two lists of expressions agree one by one. -/
def Expr.agreeAll
    (exact : Bool) : List Expr → List Expr → Bool
  | [], [] => true
  | a :: as, b :: bs => Expr.agree exact a b && Expr.agreeAll exact as bs
  | _, _ => false
termination_by structural a => a

/- Whether two lists of members agree one by one. -/
def Member.agreeAll
    (exact : Bool) : List Member → List Member → Bool
  | [], [] => true
  | a :: as, b :: bs =>
    Member.agree exact a b && Member.agreeAll exact as bs
  | _, _ => false
termination_by structural a => a

/- Whether two members agree. -/
def Member.agree
    (exact : Bool) : Member → Member → Bool
  | .property k c v s n, .property k' c' v' s' n' =>
    c == c' && Key.agree exact k k' && Expr.agree exact v v' &&
      (!exact || (s == s' && n == n'))
  | .spread a, .spread b => Expr.agree exact a b
  | _, _ => false
termination_by structural a => a

/-
  Whether two keys agree. In structure, identifiers, strings and
  numbers agree when they denote one name.
-/
def Key.agree
    (exact : Bool) : Key → Key → Bool
  | .expression a, .expression b => Expr.agree exact a b
  | .regex p f, .regex p' f' => p == p' && f == f'
  | .regex _ _, _ => false
  | _, .regex _ _ => false
  | .expression _, _ => false
  | _, .expression _ => false
  | .identifier a, .identifier b => a == b
  | .string a, .string b => a == b
  | .number a, .number b =>
    if exact then a.same b else Layout.keyText a == Layout.keyText b
  | a, b => !exact && a.name? == b.name?
termination_by structural a => a

end

namespace Expr

/- Whether two expressions differ at most in how they are written. -/
def sameStructure
    (a b : Expr) : Bool :=
  agree false a b

/- Whether two expressions differ in nothing. -/
def identical
    (a b : Expr) : Bool :=
  agree true a b

end Expr

end SchemaLang
