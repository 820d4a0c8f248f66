import SchemaLang.Source.Grammar.Tree
import SchemaLang.Source.Read

/-
  This file defines readers, which turn texts into expressions, and
  the reader that a session has unless it is given another one.

  Key definitions include:
    * `Reader`
    * `Expr.read`
    * `Reader.standard`
-/

namespace SchemaLang

/- A way to read a language, and the endings of its files. -/
structure Reader where
  language : String
  extensions : List String
  read : Placement → String → Except ReadError Expr

namespace Expr

/- The expression that a text holds. -/
def read
    (placement : Placement)
    (text : String) : Except ReadError Expr :=
  readWith Grammar.parse placement text

end Expr

namespace Reader

/- The reader of the standard language. -/
def standard : Reader where
  language := "typescript"
  extensions := ["sx", "ts", "js"]
  read := Expr.read

end Reader

end SchemaLang
