import Mathlib.Tactic.NormNum
import SchemaLang.Proofs.Compile.Listing
import SchemaLang.Proofs.Compile.Naming

/-
  What comparisons with number literals do to a schema. A comparison
  states the limits of a number under four keywords. It replaces what a
  schema says under these, and all else is as it was. So a comparison
  does not always narrow a schema: it does, if and only if the limits
  that are replaced say nothing that does not follow from the others.

  Main declarations:
    * `Limit` and `Limit.Keeps`
    * `Fields.AcceptsNumber`
    * `Compared`
    * `Fields.Replaces`
    * `Compile.comparison_replaces_limits`
-/

namespace SchemaLang

------------------------------------------------------------
-- Limits Of Numbers
------------------------------------------------------------

/- The keywords that limit a number. -/
inductive Limit
  | minimum
  | maximum
  | exclusiveMinimum
  | exclusiveMaximum
  deriving DecidableEq

namespace Limit

def key : Limit → String
  | minimum => "minimum"
  | maximum => "maximum"
  | exclusiveMinimum => "exclusiveMinimum"
  | exclusiveMaximum => "exclusiveMaximum"

/- The keys of all limits. -/
def keys : List String :=
  [minimum.key, maximum.key, exclusiveMinimum.key, exclusiveMaximum.key]

theorem key_mem_keys
    (limit : Limit) :
    limit.key ∈ keys := by
  cases limit <;> decide

theorem key_injective :
    Function.Injective key := by
  intro limit other hKeys
  cases limit <;> cases other <;> simp_all [key]

/- Whether a number is within a limit. -/
def Allows : Limit → (bound v : ℚ) → Prop
  | minimum, bound, v => bound ≤ v
  | maximum, bound, v => v ≤ bound
  | exclusiveMinimum, bound, v => bound < v
  | exclusiveMaximum, bound, v => v < bound

/-
  Whether a number is within what a map states for a limit. What it
  means to state something that is no number is left open.
-/
def Keeps
    (malformed : Limit → Schema → ℚ → Prop)
    (fields : Fields)
    (v : ℚ)
    (limit : Limit) : Prop :=
  match fields.get? limit.key with
  | none => True
  | some (.number bound) => limit.Allows bound.value v
  | some other => malformed limit other v

variable {malformed : Limit → Schema → ℚ → Prop}
variable {fields limited : Fields}
variable {v : ℚ}
variable {limit : Limit}

theorem keeps_congr
    (hSame : limited.get? limit.key = fields.get? limit.key) :
    limit.Keeps malformed limited v ↔ limit.Keeps malformed fields v := by
  unfold Keeps
  rw [hSame]

theorem keeps_number
    {bound : Numeral}
    (hGet : fields.get? limit.key = some (.number bound)) :
    limit.Keeps malformed fields v ↔ limit.Allows bound.value v := by
  unfold Keeps
  rw [hGet]

end Limit

namespace Fields

/- The entries that are not about limits. -/
def unlimited
    (fields : Fields) : Fields :=
  fields.filter fun entry => entry.1 ∉ Limit.keys

/-
  Whether a map accepts a number: the other keywords do, whatever they
  mean, and the number is within all limits.
-/
def AcceptsNumber
    (others : Fields → ℚ → Prop)
    (malformed : Limit → Schema → ℚ → Prop)
    (fields : Fields)
    (v : ℚ) : Prop :=
  others fields.unlimited v ∧
    ∀ limit : Limit, limit.Keeps malformed fields v

/- To state a limit leaves the other keywords as they are. -/
theorem unlimited_insert
    (fields : Fields)
    (limit : Limit)
    (value : Schema) :
    unlimited (fields.insert limit.key value) = unlimited fields := by
  have hKey : limit.key ∈ Limit.keys := limit.key_mem_keys
  unfold unlimited
  apply OrderedMap.ext_toList
  rw [OrderedMap.toList_filter, OrderedMap.toList_filter,
    OrderedMap.toList_insert]
  fun_induction Pairs.insert fields.toList limit.key value with
  | case1 => simp [hKey]
  | case2 old rest => simp [hKey]
  | case3 name old rest _ ih =>
      rw [List.filter_cons, List.filter_cons, ih]

------------------------------------------------------------
-- Limits That Are Replaced
------------------------------------------------------------

/-
  A map comes from another one by stating limits: it states these, and
  in all else it is as the other one.
-/
structure Replaces
    (limits : List (Limit × ℚ))
    (fields limited : Fields) : Prop where
  others : limited.unlimited = fields.unlimited
  stated :
    ∀ pair ∈ limits, ∃ bound : Numeral,
      limited.get? pair.1.key = some (.number bound) ∧
        bound.value = pair.2
  kept :
    ∀ limit : Limit, limit ∉ limits.map Prod.fst →
      limited.get? limit.key = fields.get? limit.key

namespace Replaces

variable {malformed : Limit → Schema → ℚ → Prop}
variable {limits : List (Limit × ℚ)}
variable {fields limited : Fields}
variable {v : ℚ}

/- A number is within the new limits and those that are kept. -/
theorem keeps_iff
    (hReplaces : Replaces limits fields limited) :
    (∀ limit : Limit, limit.Keeps malformed limited v) ↔
      (∀ limit : Limit, limit ∉ limits.map Prod.fst →
          limit.Keeps malformed fields v) ∧
        ∀ pair ∈ limits, pair.1.Allows pair.2 v := by
  have hStated :
      ∀ pair ∈ limits,
        (pair.1.Keeps malformed limited v ↔ pair.1.Allows pair.2 v) := by
    intro pair hPair
    rcases hReplaces.stated pair hPair with ⟨bound, hGet, hBound⟩
    rw [Limit.keeps_number hGet, hBound]
  constructor
  · intro hKeeps
    refine ⟨fun limit hLimit => ?_, fun pair hPair => ?_⟩
    · exact (Limit.keeps_congr (hReplaces.kept limit hLimit)).mp
        (hKeeps limit)
    · exact (hStated pair hPair).mp (hKeeps pair.1)
  · rintro ⟨hKept, hAllows⟩ limit
    by_cases hLimit : limit ∈ limits.map Prod.fst
    · rcases List.mem_map.mp hLimit with ⟨pair, hPair, rfl⟩
      exact (hStated pair hPair).mpr (hAllows pair hPair)
    · exact (Limit.keeps_congr (hReplaces.kept limit hLimit)).mpr
        (hKept limit hLimit)

/- The other keywords count as before, and so do the limits that are kept. -/
theorem accepts_iff
    (hReplaces : Replaces limits fields limited)
    (others : Fields → ℚ → Prop) :
    limited.AcceptsNumber others malformed v ↔
      others fields.unlimited v ∧
        (∀ limit : Limit, limit ∉ limits.map Prod.fst →
          limit.Keeps malformed fields v) ∧
        ∀ pair ∈ limits, pair.1.Allows pair.2 v := by
  unfold AcceptsNumber
  rw [hReplaces.others, hReplaces.keeps_iff]

/-
  The new limits narrow what is accepted if and only if those that they
  replace follow from them and from the limits that are kept.
-/
theorem narrows_iff
    (hReplaces : Replaces limits fields limited) :
    (∀ others v,
      limited.AcceptsNumber others malformed v ↔
        fields.AcceptsNumber others malformed v ∧
          ∀ pair ∈ limits, pair.1.Allows pair.2 v) ↔
      ∀ v, (∀ pair ∈ limits, pair.1.Allows pair.2 v) →
        (∀ limit : Limit, limit ∉ limits.map Prod.fst →
          limit.Keeps malformed fields v) →
        ∀ limit ∈ limits.map Prod.fst, limit.Keeps malformed fields v := by
  constructor
  · intro hNarrows v hAllows hKept limit _
    -- No other keyword counts here, so the limits are all there is.
    have hAccepts :
        limited.AcceptsNumber (fun _ _ => True) malformed v :=
      (hReplaces.accepts_iff _).mpr ⟨trivial, hKept, hAllows⟩
    exact ((hNarrows _ v).mp hAccepts).1.2 limit
  · intro hFollows others v
    rw [hReplaces.accepts_iff]
    constructor
    · rintro ⟨hOthers, hKept, hAllows⟩
      refine ⟨⟨hOthers, fun limit => ?_⟩, hAllows⟩
      by_cases hLimit : limit ∈ limits.map Prod.fst
      · exact hFollows v hAllows hKept limit hLimit
      · exact hKept limit hLimit
    · rintro ⟨⟨hOthers, hKeeps⟩, hAllows⟩
      exact ⟨hOthers, fun limit _ => hKeeps limit, hAllows⟩

end Replaces

end Fields

------------------------------------------------------------
-- Comparisons
------------------------------------------------------------

namespace BinaryOp

/- How the operator of a comparison relates two numbers. -/
def Relates : BinaryOp → ℚ → ℚ → Prop
  | lt, a, b => a < b
  | le, a, b => a ≤ b
  | gt, a, b => a > b
  | ge, a, b => a ≥ b
  | _, _, _ => False

/- The limit that stands to the right of a comparison. -/
def rightLimit : BinaryOp → Limit
  | lt => .exclusiveMaximum
  | le => .maximum
  | gt => .exclusiveMinimum
  | _ => .minimum

/- The limit that stands to the left of `<` or `<=`. -/
def leftLimit : BinaryOp → Limit
  | le => .minimum
  | _ => .exclusiveMinimum

theorem isRelational_iff
    {op : BinaryOp} :
    op.isRelational = true ↔
      (op = .lt ∨ op = .le) ∨ op = .gt ∨ op = .ge := by
  cases op <;> simp [isRelational]

theorem isLess_iff
    {op : BinaryOp} :
    Limited.isLess op = true ↔ op = .lt ∨ op = .le := by
  cases op <;> simp [Limited.isLess]

theorem rightLimit_allows
    {op : BinaryOp}
    (hOp : op.isRelational = true)
    (bound v : ℚ) :
    op.rightLimit.Allows bound v ↔ op.Relates v bound := by
  rcases isRelational_iff.mp hOp with (rfl | rfl) | rfl | rfl <;> rfl

theorem leftLimit_allows
    {op : BinaryOp}
    (hOp : Limited.isLess op = true)
    (bound v : ℚ) :
    op.leftLimit.Allows bound v ↔ op.Relates bound v := by
  rcases isLess_iff.mp hOp with rfl | rfl <;> rfl

theorem limitKey_eq
    (op : BinaryOp) :
    Limited.limitKey op = op.rightLimit.key := by
  cases op <;> rfl

theorem lowerKey_eq
    (op : BinaryOp) :
    Limited.lowerKey op = op.leftLimit.key := by
  cases op <;> rfl

end BinaryOp

/-
  Whether an expression is a number literal, `<` or `<=`, and an operand,
  as in front of an upper limit.
-/
def Expr.opensRange : Expr → Bool
  | ⟨.binary op least _, _⟩ => Limited.isLess op && least.number?.isSome
  | _ => false

/-
  An operand compared with number literals: `x op k`, which is not read
  as two-sided, or `lo op x op hi`. With the expression come the limits
  that it states, and the numbers for which the comparison is true.
-/
inductive Compared
    (x : Expr) : Expr → List Limit → (ℚ → Prop) → Prop
  | bound
      {op : BinaryOp}
      {limit : Expr}
      {k : Binary64}
      (note : Note)
      (hOp : op.isRelational = true)
      (hLimit : limit.number? = some k)
      (hOneSided : Limited.isLess op = true → x.opensRange = false) :
      Compared x ⟨.binary op x limit, note⟩ [op.rightLimit]
        fun v => op.Relates v k.value
  | between
      {lower upper : BinaryOp}
      {least most : Expr}
      {lo hi : Binary64}
      (inner note : Note)
      (hLower : Limited.isLess lower = true)
      (hUpper : Limited.isLess upper = true)
      (hLeast : least.number? = some lo)
      (hMost : most.number? = some hi) :
      Compared x ⟨.binary upper ⟨.binary lower least x, inner⟩ most, note⟩
        [lower.leftLimit, upper.rightLimit]
        fun v => lower.Relates lo.value v ∧ upper.Relates v hi.value

theorem Compared.exists_binary
    {x e : Expr}
    {written : List Limit}
    {holds : ℚ → Prop}
    (hCompared : Compared x e written holds) :
    ∃ op left right note, e = ⟨.binary op left right, note⟩ ∧ op ≠ .shr := by
  cases hCompared with
  | bound note hOp _ _ =>
      refine ⟨_, _, _, _, rfl, ?_⟩
      rintro rfl
      cases hOp
  | between inner note _ hUpper _ _ =>
      refine ⟨_, _, _, _, rfl, ?_⟩
      rintro rfl
      cases hUpper

namespace Limited

/- The range that states limits of an operand. -/
def stating
    (operand : Expr)
    (limits : List (Limit × Binary64)) : Limited :=
  ⟨operand, limits.map fun pair => (pair.1.key, pair.2)⟩

theorem between?_of_not_opensRange
    {op : BinaryOp}
    {x limit : Expr}
    (hOneSided : isLess op = true → x.opensRange = false)
    (note : Note) :
    between? ⟨.binary op x limit, note⟩ = none := by
  unfold between?
  split
  · rename_i upper lower least operand inner most outer hShape
    cases hShape
    split
    · rename_i hLess
      rw [Bool.and_eq_true] at hLess
      have hLeast : least.number? = none := by
        simpa [Expr.opensRange, hLess.2] using hOneSided hLess.1
      rw [hLeast]
    · rfl
  · rfl

/- A comparison is recognised, with all that it states. -/
theorem exists_of?_compared
    {x e : Expr}
    {written : List Limit}
    {holds : ℚ → Prop}
    (hCompared : Compared x e written holds) :
    ∃ limits : List (Limit × Binary64),
      of? e = some (stating x limits) ∧
        limits.map Prod.fst = written ∧
        written.Nodup ∧
        (∀ pair ∈ limits, pair.2.isFinite = true) ∧
        ∀ v, holds v ↔ ∀ pair ∈ limits, pair.1.Allows pair.2.value v := by
  cases hCompared with
  | @bound op limit k note hOp hLimit hOneSided =>
      refine ⟨[(op.rightLimit, k)], ?_, rfl, by simp, ?_, ?_⟩
      · unfold of?
        rw [between?_of_not_opensRange hOneSided]
        simp [bound?, hOp, hLimit, stating, BinaryOp.limitKey_eq]
      · simpa using Expr.isFinite_of_number? hLimit
      · intro v
        simp [BinaryOp.rightLimit_allows hOp]
  | @between lower upper least most lo hi inner note hLower hUpper hLeast
      hMost =>
      have hRelational : upper.isRelational = true :=
        BinaryOp.isRelational_iff.mpr (.inl (BinaryOp.isLess_iff.mp hUpper))
      refine ⟨[(lower.leftLimit, lo), (upper.rightLimit, hi)], ?_, rfl, ?_,
        ?_, ?_⟩
      · simp [of?, between?, hLower, hUpper, hLeast, hMost, stating,
          BinaryOp.limitKey_eq, BinaryOp.lowerKey_eq]
      · rcases BinaryOp.isLess_iff.mp hLower with rfl | rfl <;>
          rcases BinaryOp.isLess_iff.mp hUpper with rfl | rfl <;> decide
      · simpa using ⟨Expr.isFinite_of_number? hLeast,
          Expr.isFinite_of_number? hMost⟩
      · intro v
        simp [BinaryOp.leftLimit_allows hLower,
          BinaryOp.rightLimit_allows hRelational]

/- One limit is stated in place of what there was. -/
theorem exists_setKey
    {x : Binary64}
    (hFinite : x.isFinite = true)
    (fields : Fields)
    (limit : Limit) :
    ∃ bound : Numeral,
      (Schema.object fields).setKey limit.key (.ofBinary64 x) =
          .object (fields.insert limit.key (.number bound)) ∧
        bound.value = x.value := by
  rcases Numeral.exists_ofBinary64? hFinite with ⟨bound, hNumeral, hValue⟩
  refine ⟨bound, ?_, hValue⟩
  rw [Schema.ofBinary64, hNumeral]
  rfl

/-
  The induction is on the limits, from the first to the last. Each has a
  keyword of its own, so none of them is replaced by a later one.
-/
theorem exists_apply_stating
    (operand : Expr)
    (limits : List (Limit × Binary64))
    (hDistinct : (limits.map Prod.fst).Nodup)
    (hFinite : ∀ pair ∈ limits, pair.2.isFinite = true)
    (fields : Fields) :
    ∃ limited : Fields,
      (stating operand limits).apply (.object fields) = .object limited ∧
        Fields.Replaces
          (limits.map fun pair => (pair.1, pair.2.value)) fields limited := by
  induction limits generalizing fields with
  | nil => exact ⟨fields, rfl, rfl, nofun, fun _ _ => rfl⟩
  | cons pair rest ih =>
      rcases pair with ⟨limit, x⟩
      rw [List.map_cons, List.nodup_cons] at hDistinct
      rw [List.forall_mem_cons] at hFinite
      rcases exists_setKey hFinite.1 fields limit with
        ⟨bound, hFirst, hBound⟩
      rcases ih hDistinct.2 hFinite.2
          (fields.insert limit.key (.number bound)) with
        ⟨limited, hRest, hReplaces⟩
      refine ⟨limited, ?_, ?_, ?_, ?_⟩
      · rw [← hRest, ← hFirst]
        rfl
      · exact hReplaces.others.trans (Fields.unlimited_insert ..)
      · rw [List.map_cons, List.forall_mem_cons]
        refine ⟨⟨bound, ?_, hBound⟩, hReplaces.stated⟩
        have hLater :
            limit ∉ (rest.map fun pair => (pair.1, pair.2.value)).map
              Prod.fst := by
          simpa using hDistinct.1
        rw [hReplaces.kept limit hLater, OrderedMap.get?_insert, if_pos rfl]
      · intro other hOther
        simp only [List.map_cons, List.mem_cons, not_or] at hOther
        rw [hReplaces.kept other hOther.2, OrderedMap.get?_insert,
          if_neg fun hSame => hOther.1 (Limit.key_injective hSame.symm)]

end Limited

namespace Compile

variable {compiler : Compiler}
variable {registry after : Registry}

/- A comparison is compiled to what its operand is, with the limits. -/
theorem outcome_compared
    {x e : Expr}
    {written : List Limit}
    {holds : ℚ → Prop}
    (hCompared : Compared x e written holds)
    {range : Limited}
    (hRange : Limited.of? e = some range)
    {schema : Schema}
    (hOperand :
      outcome (compile compiler range.operand) registry =
        (.ok schema, after)) :
    outcome (compile compiler e) registry =
      (.ok (range.apply schema), after) := by
  rcases hCompared.exists_binary with ⟨op, left, right, note, rfl, hOp⟩
  rw [outcome_compile] at hOperand ⊢
  rw [expr_binary hOp, hRange]
  dsimp only
  rw [outcome_bind, hOperand]
  rfl

/-
  If the operand of a comparison is compiled to a map, the comparison is
  compiled to a map too. This accepts the numbers that the other keywords
  accept, that are within the limits of the operand the comparison does
  not state, and for which it is true. These are the numbers that the
  operand accepts and for which the comparison is true, whatever the
  other keywords mean, if and only if the limits that are replaced follow
  from the comparison and the limits that are kept.
-/
theorem comparison_replaces_limits
    (compiler : Compiler)
    (registry after : Registry)
    (x e : Expr)
    (written : List Limit)
    (holds : ℚ → Prop)
    (hCompared : Compared x e written holds)
    (fields : Fields)
    (hCompiled :
      outcome (compile compiler x) registry = (.ok (.object fields), after)) :
    ∃ limited : Fields,
      outcome (compile compiler e) registry =
          (.ok (.object limited), after) ∧
        ∀ malformed : Limit → Schema → ℚ → Prop,
          (∀ others v,
            limited.AcceptsNumber others malformed v ↔
              others fields.unlimited v ∧
                (∀ limit : Limit, limit ∉ written →
                  limit.Keeps malformed fields v) ∧
                holds v) ∧
          ((∀ others v,
            limited.AcceptsNumber others malformed v ↔
              fields.AcceptsNumber others malformed v ∧ holds v) ↔
            ∀ v, holds v →
              (∀ limit : Limit, limit ∉ written →
                limit.Keeps malformed fields v) →
              ∀ limit ∈ written, limit.Keeps malformed fields v) := by
  rcases Limited.exists_of?_compared hCompared with
    ⟨limits, hRange, rfl, hDistinct, hFinite, hHolds⟩
  rcases Limited.exists_apply_stating x limits hDistinct hFinite fields with
    ⟨limited, hApply, hReplaces⟩
  have hOutcome :
      outcome (compile compiler e) registry =
        (.ok ((Limited.stating x limits).apply (.object fields)), after) :=
    outcome_compared hCompared hRange hCompiled
  rw [hApply] at hOutcome
  have hWritten :
      (limits.map fun pair => (pair.1, pair.2.value)).map Prod.fst =
        limits.map Prod.fst :=
    List.map_map
  have hStated :
      ∀ v,
        (∀ pair ∈ limits.map fun pair => (pair.1, pair.2.value),
          pair.1.Allows pair.2 v) ↔ holds v := by
    intro v
    rw [List.forall_mem_map, hHolds]
  refine ⟨limited, hOutcome, fun malformed => ⟨fun others v => ?_, ?_⟩⟩
  · rw [hReplaces.accepts_iff, hWritten, hStated]
  · simpa only [hWritten, hStated] using
      hReplaces.narrows_iff

/- A natural number as a literal. -/
def natural
    (n : Nat) : Expr :=
  ⟨.number (.ofNat n), {}⟩

def unsigned : Expr :=
  ⟨.identifier "uint", {}⟩

def unsignedFields : Fields :=
  .of [("type", .string "integer"), ("minimum", .number (.integer 0))]

theorem outcome_unsigned :
    outcome (compile {} unsigned) Registry.initial =
      (.ok (.object unsignedFields), Registry.initial) := by
  have hYields :
      Yields Registry.initial
        (expr {} (expandWithin {} Registry.initial.declaredNames) unsigned)
        (titled "uint" (.object unsignedFields)) :=
    yields_reference rfl rfl _
  rw [outcome_compile]
  exact hYields

/- The expression `3 <= uint < 10`. -/
def fromThree : Expr :=
  ⟨.binary .lt ⟨.binary .le (natural 3) unsigned, {}⟩ (natural 10), {}⟩

theorem compared_fromThree :
    Compared unsigned fromThree [.minimum, .exclusiveMaximum]
      fun v => 3 ≤ v ∧ v < 10 := by
  have hThree : (Binary64.ofNat 3).value = (3 : ℤ) :=
    Binary64.value_of_integer? rfl
  have hTen : (Binary64.ofNat 10).value = (10 : ℤ) :=
    Binary64.value_of_integer? rfl
  have hCompared :
      Compared unsigned fromThree [.minimum, .exclusiveMaximum]
        fun v => (Binary64.ofNat 3).value ≤ v ∧
          v < (Binary64.ofNat 10).value :=
    .between {} {} rfl rfl rfl rfl
  simpa [hThree, hTen] using hCompared

/- The limit of `uint` that is replaced is that it is not negative. -/
theorem comparison_replaces_limits_fromThree :
    Compared unsigned fromThree [.minimum, .exclusiveMaximum]
        (fun v => 3 ≤ v ∧ v < 10) ∧
      outcome (compile {} unsigned) Registry.initial =
        (.ok (.object unsignedFields), Registry.initial) ∧
      ∃ limited : Fields,
        outcome (compile {} fromThree) Registry.initial =
            (.ok (.object limited), Registry.initial) ∧
          ∀ malformed others v,
            limited.AcceptsNumber others malformed v ↔
              unsignedFields.AcceptsNumber others malformed v ∧
                3 ≤ v ∧ v < 10 := by
  rcases comparison_replaces_limits {} Registry.initial Registry.initial
      unsigned fromThree _ _ compared_fromThree unsignedFields
      outcome_unsigned with
    ⟨limited, hLimited, hAccepts⟩
  refine ⟨compared_fromThree, outcome_unsigned, limited, hLimited, ?_⟩
  intro malformed
  apply (hAccepts malformed).2.mpr
  rintro v ⟨hThree, -⟩ - limit hLimit
  have hNonnegative : 0 ≤ v := le_trans (by decide) hThree
  simp only [List.mem_cons, List.not_mem_nil, or_false] at hLimit
  rcases hLimit with rfl | rfl
  · have hGet :
        unsignedFields.get? Limit.minimum.key =
          some (.number (.integer 0)) := rfl
    rw [Limit.keeps_number hGet]
    simpa [Limit.Allows, Numeral.value] using hNonnegative
  · trivial

/- The expression `uint >= -5`. -/
def fromBelow : Expr :=
  ⟨.binary .ge unsigned ⟨.unary .neg (natural 5), {}⟩, {}⟩

/- The expression `1 <= 3`. -/
def upToThree : Expr :=
  ⟨.binary .le (natural 1) (natural 3), {}⟩

theorem outcome_fromBelow :
    outcome (compile {} fromBelow) Registry.initial =
      (.ok (.object
        (.of
          [("type", .string "integer"),
            ("minimum", .number (.integer (-5)))])),
        Registry.initial) := by
  have hCompared :
      Compared unsigned fromBelow [.minimum]
        fun v => v ≥ (Binary64.ofNat 5).negate.value :=
    .bound {} rfl rfl nofun
  exact outcome_compared hCompared rfl outcome_unsigned

theorem outcome_natural
    {n : Nat}
    (hFinite : (Binary64.ofNat n).isFinite = true) :
    outcome (compile {} (natural n)) Registry.initial =
      (.ok (constant (.ofBinary64 (.ofNat n))), Registry.initial) := by
  have hExpr :
      expr {} (expandWithin {} Registry.initial.declaredNames) (natural n) =
        pure (constant (.ofBinary64 (.ofNat n))) := by
    simp [expr, natural, Expr.number?, hFinite]
  rw [outcome_compile, hExpr]
  rfl

theorem outcome_upToThree :
    outcome (compile {} upToThree) Registry.initial =
      (.ok (.object
        (.of
          [("const", .number (.integer 1)),
            ("maximum", .number (.integer 3))])),
        Registry.initial) := by
  have hCompared :
      Compared (natural 1) upToThree [.maximum]
        fun v => v ≤ (Binary64.ofNat 3).value :=
    .bound {} rfl rfl fun _ => rfl
  exact outcome_compared hCompared rfl (outcome_natural rfl)

theorem outcome_upToThree_lt :
    outcome (compile {} ⟨.binary .lt upToThree (natural 7), {}⟩)
        Registry.initial =
      (.ok (.object
        (.of
          [("const", .number (.integer 3)),
            ("minimum", .number (.integer 1)),
            ("exclusiveMaximum", .number (.integer 7))])),
        Registry.initial) := by
  have hCompared :
      Compared (natural 3) ⟨.binary .lt upToThree (natural 7), {}⟩
        [.minimum, .exclusiveMaximum]
        fun v => (Binary64.ofNat 1).value ≤ v ∧
          v < (Binary64.ofNat 7).value :=
    .between {} {} rfl rfl rfl rfl
  exact outcome_compared hCompared rfl (outcome_natural rfl)

/-
  What is not narrowed: `uint` does not accept `-3`, but `uint >= -5`
  does, and `1 <= 3` accepts `1`, but not so if it stands in front of
  `< 7`, where it is read as one side of a range of `3`.
-/
theorem comparison_not_narrowing :
    (∃ fields limited : Fields,
      outcome (compile {} unsigned) Registry.initial =
          (.ok (.object fields), Registry.initial) ∧
        outcome (compile {} fromBelow) Registry.initial =
          (.ok (.object limited), Registry.initial) ∧
        ∀ malformed,
          limited.AcceptsNumber (fun _ _ => True) malformed (-3) ∧
            ¬fields.AcceptsNumber (fun _ _ => True) malformed (-3)) ∧
      ∃ fields limited : Fields,
        outcome (compile {} upToThree) Registry.initial =
            (.ok (.object fields), Registry.initial) ∧
          outcome (compile {} ⟨.binary .lt upToThree (natural 7), {}⟩)
              Registry.initial =
            (.ok (.object limited), Registry.initial) ∧
          ∃ others : Fields → ℚ → Prop, ∀ malformed,
            fields.AcceptsNumber others malformed 1 ∧
              ¬limited.AcceptsNumber others malformed 1 := by
  refine ⟨⟨_, _, outcome_unsigned, outcome_fromBelow, ?_⟩,
    _, _, outcome_upToThree, outcome_upToThree_lt, ?_⟩
  · refine fun malformed => ⟨⟨trivial, fun limit => ?_⟩, fun hAccepts => ?_⟩
    · cases limit with
      | minimum =>
          rw [Limit.keeps_number rfl]
          norm_num [Limit.Allows, Numeral.value]
      | _ => trivial
    · have hMinimum := hAccepts.2 .minimum
      rw [Limit.keeps_number rfl] at hMinimum
      norm_num [Limit.Allows, Numeral.value] at hMinimum
  · refine ⟨fun rest v => ∃ n : Numeral,
      rest.get? "const" = some (.number n) ∧ n.value = v, fun malformed =>
      ⟨⟨⟨.integer 1, rfl, rfl⟩, fun limit => ?_⟩, ?_⟩⟩
    · cases limit with
      | maximum =>
          rw [Limit.keeps_number rfl]
          norm_num [Limit.Allows, Numeral.value]
      | _ => trivial
    · rintro ⟨⟨n, hConst, hValue⟩, -⟩
      cases hConst
      norm_num [Numeral.value] at hValue

end Compile

end SchemaLang
