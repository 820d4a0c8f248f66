import SchemaLang.Proofs.Compile.Runs
import SchemaLang.Proofs.Resolution.Evolution

/-
  Where errors are located. An expression that is compiled fails at a
  place within it, or within what a name has been declared to be. The
  machine builds an object for each case; its parts have no place of
  their own, and no error is reported there.

  Main declarations:
    * `Registry.Locates`
    * `Compile.compile_error_located`
-/

namespace SchemaLang

------------------------------------------------------------
-- Errors
------------------------------------------------------------

/- A place within an expression, or within what is declared. -/
def Registry.Locates
    (registry : Registry)
    (e : Expr)
    (span : Span) : Prop :=
  span ∈ e.places ∨
    ∃ name source,
      (name, Entry.source source) ∈ registry.toList ∧ span ∈ source.places

namespace Compile

/- An error is located, whichever names may still be referred to. -/
theorem error_located
    (version : Version)
    (names : List String)
    {registry after : Registry}
    {e : Expr}
    {error : CompileError}
    (hFails :
      outcome
          (expr { version := version }
            (expandWithin { version := version } names) e)
          registry =
        (.error error, after)) :
    registry.Locates e error.span := by
  have hRespects :
      Compiler.Respects (Likeness.within (registry.Locates e))
        { version := version } :=
    Compiler.respects_builtin (fun _ => View.isComplete_whole) version
  have hRegistry :
      Registry.Like {}
        (Likeness.within (registry.Locates e)).like registry registry :=
    .refl fun name source hMember =>
      ⟨rfl, fun span hSpan => .inr ⟨name, source, hMember, hSpan⟩⟩
  have hMatches :=
    (Likeness.matches_expr (fun _ _ => id) hRespects names hRegistry
      ⟨rfl, fun span hSpan => .inl hSpan⟩).1
  rw [hFails] at hMatches
  cases hMatches with
  | error cause hLocated => exact hLocated.2

/-
  Every error is located within what has been written, also on the
  machine, and whatever it is resolving.
-/
theorem compile_error_located
    (version : Version)
    (e : Expr)
    (error : CompileError) :
    (∀ registry after,
      outcome (compile { version := version } e) registry =
          (.error error, after) →
        registry.Locates e error.span) ∧
      ∀ machine after depth,
        machine.currentScope.depth e ≤ depth →
          Machine.outcome
              ((Machine.atDepth { version := version } depth).compile e)
              machine =
            some (.error error, after) →
          machine.registry.Locates e error.span := by
  constructor
  · intro registry after hFails
    rw [outcome_compile] at hFails
    exact error_located version _ hFails
  · intro machine after depth hDepth hFails
    rw [machine_outcome_eq _ machine hDepth] at hFails
    have hEnded := Prod.mk.inj (Option.some.inj hFails)
    exact error_located version machine.free (Prod.ext hEnded.1 rfl)

/- The case `int >> string`, on the second line of a text. -/
def integerCase : Expr :=
  let note (first last : Nat) : Note :=
    { span := ⟨none, ⟨2, first⟩, ⟨2, last⟩⟩ }
  ⟨.binary .shr ⟨.identifier "int", note 0 3⟩
    ⟨.identifier "string", note 7 13⟩, note 0 13⟩

theorem outcome_integerCase :
    outcome (compile {} integerCase) Registry.initial =
      (.error ⟨.mergeTypes "object" "integer", ⟨none, ⟨2, 0⟩, ⟨2, 3⟩⟩⟩,
        Registry.initial) := by
  rw [outcome_compile]
  unfold integerCase
  simp only [expr, case, spreadInto, resolve, outcome_bind,
    outcome_check, outcome_pure, andThen, Expr.referenceName]
  rfl

/-
  The condition cannot be spread into an object. The machine fails
  when it compiles the object that it has built, and yet at the place
  of the condition; nothing in the text has the place of its spreads.
-/
theorem compile_error_located_integerCase :
    Registry.initial.Locates integerCase ⟨none, ⟨2, 0⟩, ⟨2, 3⟩⟩ ∧
      ({} : Span) ∉ integerCase.places ∧
      ∃ depth error after,
        Machine.outcome ((Machine.atDepth {} depth).compile integerCase)
            ⟨Registry.initial, []⟩ =
          some (.error error, after) ∧
        Registry.initial.Locates integerCase error.span := by
  have hLocated := compile_error_located .draft07 integerCase
    ⟨.mergeTypes "object" "integer", ⟨none, ⟨2, 0⟩, ⟨2, 3⟩⟩⟩
  refine ⟨hLocated.1 _ _ outcome_integerCase, by decide, ?_⟩
  have hDepth :=
    Nat.le_refl
      ((Machine.currentScope ⟨Registry.initial, []⟩).depth integerCase)
  have hMachine := Machine.outcome_compile_eq {} hDepth
  rw [outcome_integerCase] at hMachine
  exact ⟨_, _, _, hMachine, hLocated.2 _ _ _ hDepth hMachine⟩

end Compile

end SchemaLang
