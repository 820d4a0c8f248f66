import Mathlib.Tactic.Common
import SchemaLang.Error

/-
  Results that match: both are values that are related, or both are
  errors for the same cause, at places that are related.

  Main declarations:
    * `exists_of_bind_eq_ok`
    * `Matches`
    * `Matches.bind`
-/

namespace SchemaLang

variable {α β γ δ : Type}

/- What goes on to a value has had one before. -/
theorem exists_of_bind_eq_ok
    {ε : Type}
    {result : Except ε α}
    {next : α → Except ε β}
    {b : β}
    (hOk : result >>= next = .ok b) :
    ∃ a, result = .ok a ∧ next a = .ok b := by
  cases result with
  | error error => cases hOk
  | ok a => exact ⟨a, rfl, hOk⟩

inductive Matches
    (located : Span → Span → Prop)
    (matched : α → β → Prop) :
    Except CompileError α → Except CompileError β → Prop
  | ok
      {a : α}
      {b : β}
      (hMatched : matched a b) :
      Matches located matched (.ok a) (.ok b)
  | error
      (cause : Cause)
      {span span' : Span}
      (hLocated : located span span') :
      Matches located matched (.error ⟨cause, span⟩)
        (.error ⟨cause, span'⟩)

namespace Matches

variable {located : Span → Span → Prop}
variable {matched : α → β → Prop}
variable {matched' : γ → δ → Prop}

/- What goes on with related values matches if the rest does. -/
theorem bind
    {result : Except CompileError α}
    {result' : Except CompileError β}
    {next : α → Except CompileError γ}
    {next' : β → Except CompileError δ}
    (hResult : Matches located matched result result')
    (hNext :
      ∀ a b, matched a b → Matches located matched' (next a) (next' b)) :
    Matches located matched' (result >>= next) (result' >>= next') := by
  cases hResult with
  | ok hMatched => exact hNext _ _ hMatched
  | error cause hLocated => exact .error cause hLocated

end Matches

end SchemaLang
