import Mathlib.Tactic.Common
import SchemaLang.Proofs.Compile.Outcome

/-
  Plain properties and plain elements: keys that are names and no
  directives, and array literals without spreads.

  Main declarations:
    * `Key.isPlain`
    * `Member.isPlainWith`
    * `Compile.propertyName_of_isPlain`
    * `Compile.arrayFault?_eq_none_of_plain`
    * `Compile.rest_eq_pure` and `Compile.rest_yields_none`
-/

namespace SchemaLang

/- Whether a key is a name that can be no directive. -/
def Key.isPlain : Key → Bool
  | identifier name => name.toList.head? != some '$'
  | string value => value.toList.head? != some '$'
  | _ => false

namespace Member

/- Whether a member is a plain property with a value in a class. -/
def isPlainWith
    (inClass : Expr → Bool) : Member → Bool
  | property key _ value _ _ => key.isPlain && inClass value
  | spread _ => false

theorem exists_of_isPlainWith
    {inClass : Expr → Bool}
    {member : Member}
    (hPlain : member.isPlainWith inClass = true) :
    ∃ key computed value span comments,
      member = .property key computed value span comments ∧
        key.isPlain = true ∧ inClass value = true := by
  cases member with
  | property key computed value span comments =>
      simp only [isPlainWith, Bool.and_eq_true] at hPlain
      exact ⟨key, computed, value, span, comments, rfl, hPlain⟩
  | spread e => cases hPlain

end Member

namespace Compile

variable {compiler : Compiler}
variable {expand : Expand}

/- A plain key is a name, and no directive. -/
theorem propertyName_of_isPlain
    (compiler : Compiler)
    {key : Key}
    (hPlain : key.isPlain = true)
    (span : Span) :
    ∃ name,
      key.name? = some name ∧ key.propertyName span = .ok name ∧
        directive? compiler name = none := by
  have hNone :
      ∀ name : String, (name.toList.head? != some '$') = true →
        directive? compiler name = none := by
    intro name hHead
    unfold directive?
    split
    · rename_i hName
      rw [hName] at hHead
      simp at hHead
    · rfl
  cases key with
  | identifier name => exact ⟨name, rfl, rfl, hNone name hPlain⟩
  | string value => exact ⟨value, rfl, rfl, hNone value hPlain⟩
  | number _ => cases hPlain
  | regex _ _ => cases hPlain
  | expression _ => cases hPlain

/- Elements without a spread are no fault. -/
theorem arrayFault?_eq_none_of_plain
    {elements : List Expr}
    (hPlain : ∀ element ∈ elements, ¬ element.isSpread = true)
    (exact : Bool) :
    arrayFault? elements exact = none := by
  have hSpreads : elements.filter Expr.isSpread = [] :=
    List.filter_eq_nil_iff.mpr hPlain
  simp [arrayFault?, hSpreads]

/- Without spreads there is nothing behind the places. -/
theorem rest_eq_pure
    {elements : List Expr}
    (hPlain : ∀ element ∈ elements, ¬ element.isSpread = true) :
    rest compiler expand elements = pure none := by
  induction elements with
  | nil => rw [rest]
  | cons element others ih =>
      rw [rest]
      · exact ih fun e he => hPlain e (List.mem_cons_of_mem _ he)
      · rintro argument note rfl
        exact hPlain _ List.mem_cons_self rfl

theorem rest_yields_none
    {elements : List Expr}
    (hPlain : ∀ element ∈ elements, ¬ element.isSpread = true)
    (registry : Registry) :
    Yields registry (rest compiler expand elements) none := by
  rw [rest_eq_pure hPlain]
  exact Yields.pure none

end Compile

end SchemaLang
