import SchemaLang.Source.Phrase

/-
  This file says which comments of a list belong to which element.
  A comment behind an element belongs to it until a comma comes;
  behind a comma, a comment belongs to the next element, and to the
  last one if there is no next.

  Key definitions include:
    * `Attached`
    * `Attached.ofParts`
-/

namespace SchemaLang

/- An element and the comments that belong to it. -/
structure Attached (α : Type) where
  item : α
  leading : List Remark
  trailing : List Remark

namespace Attached

/-
  The elements from a given one on. The flag tells whether a comma
  was seen behind it; the comments that wait are behind that comma.
-/
def following {α : Type}
    (current : Attached α)
    (divided : Bool)
    (waiting : List Remark) : List (Part α) → List (Attached α)
  | [] => [{ current with trailing := current.trailing ++ waiting }]
  | .comment remark :: rest =>
    if divided then following current divided (waiting ++ [remark]) rest
    else
      following { current with trailing := current.trailing ++ [remark] }
        divided waiting rest
  | .comma :: rest => following current true waiting rest
  | .element item :: rest =>
    current :: following ⟨item, waiting, []⟩ false [] rest

/- The elements, given the comments in front of all of them. -/
def opening {α : Type}
    (waiting : List Remark) : List (Part α) → List (Attached α)
  | [] => []
  | .comment remark :: rest => opening (waiting ++ [remark]) rest
  | .comma :: rest => opening waiting rest
  | .element item :: rest => following ⟨item, waiting, []⟩ false [] rest

/- The elements of a list, each with its comments. -/
def ofParts {α : Type}
    (parts : List (Part α)) : List (Attached α) :=
  opening [] parts

end Attached

end SchemaLang
