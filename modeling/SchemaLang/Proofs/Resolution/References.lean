import SchemaLang.Proofs.Compile.Leaves
import SchemaLang.Proofs.Compile.Plain

/-
  Expressions that only refer to names and put schemas together.
  They give no names, and whether one is compiled depends on the
  names that it mentions: it is compiled if all of them are
  resolved, and otherwise fails as one of them does.

  Main declarations:
    * `Expr.isSimple`
    * `Expr.mentions`
    * `Compile.Settles`
    * `Compile.settles_expr`
-/

namespace SchemaLang

------------------------------------------------------------
-- Simple Expressions
------------------------------------------------------------

namespace Expr

mutual

/-
  Whether an expression is made of names, objects with plain
  properties, arrays without spreads and chains of one operator.
-/
def isSimple : Expr → Bool
  | ⟨.identifier name, _⟩ => name != "undefined"
  | ⟨.object members, _⟩ => membersAreSimple members
  | ⟨.array elements, _⟩ => allAreSimple elements
  | ⟨.logical op left right, _⟩ =>
    op != .nullish && Chain.admits op left && Chain.admits op right &&
      isSimple left && isSimple right
  | _ => false

/- Whether all expressions are simple. -/
def allAreSimple : List Expr → Bool
  | [] => true
  | e :: rest => isSimple e && allAreSimple rest

/- Whether all members are plain properties with simple values. -/
def membersAreSimple : List Member → Bool
  | [] => true
  | .property key _ value _ _ :: rest =>
    key.isPlain && isSimple value && membersAreSimple rest
  | .spread _ :: _ => false

end

mutual

/- The names that a simple expression mentions. -/
def mentions : Expr → List String
  | ⟨.identifier name, _⟩ => [name]
  | ⟨.object members, _⟩ => membersMention members
  | ⟨.array elements, _⟩ => allMention elements
  | ⟨.logical _ left right, _⟩ => mentions left ++ mentions right
  | _ => []

/- The names that expressions mention. -/
def allMention : List Expr → List String
  | [] => []
  | e :: rest => mentions e ++ allMention rest

/- The names that the values of properties mention. -/
def membersMention : List Member → List String
  | [] => []
  | .property _ _ value _ _ :: rest =>
    mentions value ++ membersMention rest
  | .spread _ :: rest => membersMention rest

end

attribute [local simp] isSimple mentions allMention membersMention

theorem isSimple_closedUnder :
    Chain.ClosedUnder isSimple := by
  intro op left right note hSimple
  simp only [isSimple, Bool.and_eq_true, bne_iff_ne] at hSimple
  rcases hSimple with ⟨⟨⟨⟨hOp, hLeft⟩, hRight⟩, hFirst⟩, hSecond⟩
  exact ⟨hOp, ⟨hLeft, hFirst⟩, hRight, hSecond⟩

theorem allAreSimple_eq
    (es : List Expr) :
    allAreSimple es = es.all isSimple := by
  induction es with
  | nil => rfl
  | cons e rest ih => rw [allAreSimple, ih, List.all_cons]

theorem membersAreSimple_eq
    (members : List Member) :
    membersAreSimple members =
      members.all (Member.isPlainWith isSimple) := by
  induction members with
  | nil => rfl
  | cons member rest ih =>
      cases member with
      | property key computed value span comments =>
          rw [membersAreSimple, ih, List.all_cons, Member.isPlainWith]
      | spread e => rfl

theorem not_isSpread_of_isSimple
    {e : Expr}
    (hSimple : e.isSimple = true) :
    ¬ e.isSpread = true := by
  intro hSpread
  rcases e with ⟨form, note⟩
  cases form <;> simp [isSpread] at hSpread
  simp at hSimple

theorem not_isUndefined_of_isSimple
    {e : Expr}
    (hSimple : e.isSimple = true) :
    ¬ e.isUndefined = true := by
  intro hUndefined
  rcases e with ⟨form, note⟩
  cases form <;> simp [isUndefined, identifier?] at hUndefined
  subst hUndefined
  simp at hSimple

/- Simple expressions are no constants. -/
theorem of?_eq_none_of_isSimple
    {e : Expr}
    (hSimple : e.isSimple = true) :
    Chain.Constant.of? e = none := by
  rcases e with ⟨form, note⟩
  cases form <;>
    first
    | rfl
    | simp at hSimple

theorem isCase_eq_false_of_isSimple
    {e : Expr}
    (hSimple : e.isSimple = true) :
    Chain.isCase e = false := by
  unfold Chain.isCase
  split
  · simp at hSimple
  · rfl

theorem mem_allMention
    {es : List Expr}
    {e : Expr}
    {name : String}
    (hMember : e ∈ es)
    (hMentions : name ∈ e.mentions) :
    name ∈ allMention es := by
  induction es with
  | nil => cases hMember
  | cons first rest ih =>
      rw [allMention, List.mem_append]
      rcases List.mem_cons.mp hMember with rfl | hRest
      · exact .inl hMentions
      · exact .inr (ih hRest)

theorem mem_membersMention
    {members : List Member}
    {key : Key}
    {computed : Bool}
    {value : Expr}
    {span : Span}
    {comments : Comments}
    {name : String}
    (hMember : .property key computed value span comments ∈ members)
    (hMentions : name ∈ value.mentions) :
    name ∈ membersMention members := by
  induction members with
  | nil => cases hMember
  | cons first rest ih =>
      rcases List.mem_cons.mp hMember with rfl | hRest
      · rw [membersMention, List.mem_append]
        exact .inl hMentions
      · cases first with
        | property =>
            rw [membersMention, List.mem_append]
            exact .inr (ih hRest)
        | spread => exact ih hRest

theorem allMention_append
    (first second : List Expr) :
    allMention (first ++ second) =
      allMention first ++ allMention second := by
  induction first with
  | nil => rfl
  | cons e rest ih => simp [ih]

/- The leaves of a chain mention what the chain does. -/
theorem allMention_leavesAt
    (whole : Bool)
    (e : Expr) :
    allMention (Chain.leavesAt whole e) = e.mentions := by
  fun_induction Chain.leavesAt whole e with
  | case1 => simp
  | case2 whole op left right note hChain ihLeft ihRight =>
      rw [allMention_append, ihLeft, ihRight, mentions]
  | case3 => simp

end Expr

------------------------------------------------------------
-- Settled Computations
------------------------------------------------------------

namespace Compile

variable {α β : Type}
variable {registry : Registry}

/-
  A computation gives no names. If it succeeds, a fact is known, and
  if it fails, its error is a fault of a kind.
-/
def Settles
    (registry : Registry)
    (computation : Compile α)
    (fact : Prop)
    (fault : CompileError → Prop) : Prop :=
  (∃ a, Yields registry computation a ∧ fact) ∨
    ∃ error,
      outcome computation registry = (.error error, registry) ∧
        fault error

namespace Settles

variable {computation : Compile α}
variable {next : α → Compile β}
variable {fact other : Prop}
variable {fault : CompileError → Prop}

theorem pure
    (a : α)
    (hFact : fact) :
    Settles registry (Pure.pure a) fact fault :=
  .inl ⟨a, Yields.pure a, hFact⟩

theorem imp
    {fault' : CompileError → Prop}
    (hSettles : Settles registry computation fact fault)
    (hFact : fact → other)
    (hFault : ∀ error, fault error → fault' error) :
    Settles registry computation other fault' := by
  rcases hSettles with ⟨a, hYields, hKnown⟩ | ⟨error, hError, hKind⟩
  · exact .inl ⟨a, hYields, hFact hKnown⟩
  · exact .inr ⟨error, hError, hFault error hKind⟩

/- Facts known of two steps are known of both together. -/
theorem bind
    (hFirst : Settles registry computation fact fault)
    (hNext : ∀ a, Settles registry (next a) other fault) :
    Settles registry (computation >>= next) (fact ∧ other) fault := by
  rcases hFirst with ⟨a, hYields, hFact⟩ | ⟨error, hError, hFault⟩
  · rcases hNext a with ⟨b, hLast, hOther⟩ | ⟨error, hError, hFault⟩
    · exact .inl ⟨b, hYields.bind hLast, hFact, hOther⟩
    · refine .inr ⟨error, ?_, hFault⟩
      unfold Yields at hYields
      rw [outcome_bind, hYields]
      exact hError
  · refine .inr ⟨error, ?_, hFault⟩
    rw [outcome_bind, hError]
    rfl

/- A step that succeeds settles nothing. -/
theorem after
    {a : α}
    (hYields : Yields registry computation a)
    (hNext : Settles registry (next a) fact fault) :
    Settles registry (computation >>= next) fact fault := by
  rcases hNext with ⟨b, hLast, hFact⟩ | ⟨error, hError, hFault⟩
  · exact .inl ⟨b, hYields.bind hLast, hFact⟩
  · refine .inr ⟨error, ?_, hFault⟩
    unfold Yields at hYields
    rw [outcome_bind, hYields]
    exact hError

/- Nor does a step behind that always succeeds. -/
theorem before
    (hFirst : Settles registry computation fact fault)
    (hNext : ∀ a, ∃ b, Yields registry (next a) b) :
    Settles registry (computation >>= next) fact fault := by
  have hBoth :
      Settles registry (computation >>= next) (fact ∧ True) fault := by
    refine hFirst.bind fun a => ?_
    rcases hNext a with ⟨b, hLast⟩
    exact .inl ⟨b, hLast, trivial⟩
  exact hBoth.imp And.left fun _ => id

theorem map
    (hFirst : Settles registry computation fact fault)
    (change : α → β) :
    Settles registry (computation >>= fun a => Pure.pure (change a))
      fact fault :=
  hFirst.before fun a => ⟨change a, Yields.pure _⟩

end Settles

------------------------------------------------------------
-- Simple Expressions Are Settled
------------------------------------------------------------

variable {compiler : Compiler}
variable {expand : Expand}
variable {known : String → Prop}
variable {fault : CompileError → Prop}

/- If an expression is compiled, all names that it mentions are known. -/
def SettlesExpr
    (compiler : Compiler)
    (expand : Expand)
    (registry : Registry)
    (known : String → Prop)
    (fault : CompileError → Prop)
    (e : Expr) : Prop :=
  Settles registry (expr compiler expand e)
    (∀ name ∈ e.mentions, known name) fault

/- What is known of two lists of names is known of both together. -/
theorem forall_mem_append
    {first second : List String}
    (hBoth :
      (∀ name ∈ first, known name) ∧ ∀ name ∈ second, known name) :
    ∀ name ∈ first ++ second, known name := by
  intro name hName
  rcases List.mem_append.mp hName with hFirst | hSecond
  · exact hBoth.1 name hFirst
  · exact hBoth.2 name hSecond

theorem settles_all
    {es : List Expr}
    (hEach :
      ∀ e ∈ es, SettlesExpr compiler expand registry known fault e) :
    Settles registry (all compiler expand es)
      (∀ name ∈ Expr.allMention es, known name) fault := by
  induction es with
  | nil =>
      rw [all]
      exact .pure _ (by simp [Expr.allMention])
  | cons e rest ih =>
      have hRest := ih fun other hOther =>
        hEach other (List.mem_cons_of_mem _ hOther)
      rw [all, Expr.allMention]
      refine ((hEach e (by simp)).bind fun first =>
        hRest.map fun others => first :: others).imp ?_ fun _ => id
      exact forall_mem_append

theorem settles_tuple
    {elements : List Expr}
    (hEach :
      ∀ e ∈ elements,
        SettlesExpr compiler expand registry known fault e)
    (hPlain : ∀ element ∈ elements, ¬ element.isSpread = true) :
    Settles registry (tuple compiler expand elements)
      (∀ name ∈ Expr.allMention elements, known name) fault := by
  induction elements with
  | nil =>
      rw [tuple]
      exact .pure _ (by simp [Expr.allMention])
  | cons element rest ih =>
      have hRest :=
        ih (fun other hOther =>
            hEach other (List.mem_cons_of_mem _ hOther))
          fun other hOther =>
            hPlain other (List.mem_cons_of_mem _ hOther)
      rw [tuple, Expr.allMention]
      · refine ((hEach element (by simp)).bind fun first =>
          hRest.map fun items => first :: items).imp ?_ fun _ => id
        exact forall_mem_append
      · rintro argument note rfl
        exact hPlain _ List.mem_cons_self rfl

theorem settles_array
    {elements : List Expr}
    (hEach :
      ∀ e ∈ elements,
        SettlesExpr compiler expand registry known fault e)
    (hPlain : ∀ element ∈ elements, ¬ element.isSpread = true) :
    Settles registry (array compiler expand elements false)
      (∀ name ∈ Expr.allMention elements, known name) fault := by
  rcases elements with _ | ⟨first, _ | ⟨second, others⟩⟩
  · rw [array]
    exact .pure _ (by simp [Expr.allMention])
  · rw [array]
    · refine ((hEach first (by simp)).map _).imp ?_ fun _ => id
      simp [Expr.allMention]
    · rintro argument note rfl
      exact hPlain _ List.mem_cons_self rfl
  · have hTuple := settles_tuple hEach hPlain
    rw [array, arrayFault?_eq_none_of_plain hPlain]
    · exact hTuple.before fun items =>
        ⟨_, (rest_yields_none hPlain registry).bind (Yields.pure _)⟩
    all_goals simp

/- A plain property is compiled if its value is. -/
theorem settles_property
    {key : Key}
    {value : Expr}
    (hPlain : key.isPlain = true)
    (hDefined : ¬ value.isUndefined = true)
    (hValue : SettlesExpr compiler expand registry known fault value)
    (previous : Option Member)
    (fields : Fields)
    (computed : Bool)
    (span : Span)
    (comments : Comments) :
    Settles registry
      (propertyInto compiler expand previous fields key computed value
        span comments)
      (∀ name ∈ value.mentions, known name) fault := by
  rcases propertyName_of_isPlain compiler hPlain span with
    ⟨name, -, hName, hDirective⟩
  rw [propertyInto]
  · refine .after (Yields.check hName) ?_
    rw [hDirective]
    simp only [hDefined]
    exact hValue.map _
  · rintro pattern flags rfl
    cases hPlain

/- A property with a plain key whose value is settled. -/
def SettlesMember
    (compiler : Compiler)
    (expand : Expand)
    (registry : Registry)
    (known : String → Prop)
    (fault : CompileError → Prop) : Member → Prop
  | .property key _ value _ _ =>
    key.isPlain = true ∧ ¬ value.isUndefined = true ∧
      SettlesExpr compiler expand registry known fault value
  | .spread _ => False

theorem settles_memberList
    {members : List Member}
    (hEach :
      ∀ member ∈ members,
        SettlesMember compiler expand registry known fault member)
    (previous : Option Member)
    (fields : Fields) :
    Settles registry (memberList compiler expand previous fields members)
      (∀ name ∈ Expr.membersMention members, known name) fault := by
  induction members generalizing previous fields with
  | nil =>
      rw [memberList]
      exact .pure _ (by simp [Expr.membersMention])
  | cons member rest ih =>
      have hMember := hEach member (by simp)
      cases member with
      | spread e => cases hMember
      | property key computed value span comments =>
          rcases hMember with ⟨hPlain, hDefined, hValue⟩
          rw [memberList, Expr.membersMention]
          refine ((settles_property hPlain hDefined hValue previous
            fields computed span comments).bind fun fields =>
              ih (fun other hOther =>
                hEach other (List.mem_cons_of_mem _ hOther)) _
                  fields).imp ?_ fun _ => id
          exact forall_mem_append

theorem settles_object
    {members : List Member}
    (hEach :
      ∀ member ∈ members,
        SettlesMember compiler expand registry known fault member)
    (note : Note) :
    SettlesExpr compiler expand registry known fault
      ⟨.object members, note⟩ := by
  have hPatterns : members.any Member.isPattern = false := by
    rw [List.any_eq_false]
    intro member hMember hPattern
    have hPlain := hEach member hMember
    unfold Member.isPattern at hPattern
    split at hPattern
    · cases hPlain.1
    · cases hPattern
  unfold SettlesExpr
  rw [expr, hPatterns, Expr.mentions]
  refine (settles_memberList hEach none _).map _

theorem settles_logical
    {op : LogicalOp}
    {left right : Expr}
    {note : Note}
    (hSimple : Expr.isSimple ⟨.logical op left right, note⟩ = true)
    (hEach :
      ∀ leaf ∈ Chain.leaves ⟨.logical op left right, note⟩,
        SettlesExpr compiler expand registry known fault leaf) :
    SettlesExpr compiler expand registry known fault
      ⟨.logical op left right, note⟩ := by
  have hClosed := Expr.isSimple_closedUnder
  have hMentions :
      Expr.allMention (Chain.leaves ⟨.logical op left right, note⟩) =
        Expr.mentions ⟨.logical op left right, note⟩ :=
    Expr.allMention_leavesAt true _
  have hAll := settles_all hEach
  rw [hMentions] at hAll
  unfold SettlesExpr
  rw [expr, hClosed.fault?_eq_none hSimple]
  -- A leaf that is no case and no constant decides how to go on.
  rcases hLeaves : Chain.leaves ⟨.logical op left right, note⟩ with
    _ | ⟨leaf, others⟩
  · exact absurd hLeaves (Chain.leavesAt_ne_nil true _)
  · have hLeaf : leaf.isSimple = true :=
      hClosed.of_mem_leaves hSimple (by simp [hLeaves])
    rw [hLeaves] at hAll
    simp only [List.all_cons, Chain.constants?,
      Expr.isCase_eq_false_of_isSimple hLeaf,
      Expr.of?_eq_none_of_isSimple hLeaf, Bool.false_and,
      Bool.and_false, Bool.false_eq_true, if_false, ite_self]
    exact hAll.map _

/- A simple expression is settled if all smaller ones are. -/
theorem settles_of_smaller
    {e : Expr}
    (hSimple : e.isSimple = true)
    (hNames :
      ∀ name ∈ e.mentions, ∀ note,
        Settles registry (resolve expand ⟨.identifier name, note⟩)
          (known name) fault)
    (hSmaller :
      ∀ part : Expr, sizeOf part < sizeOf e →
        part.isSimple = true → part.mentions ⊆ e.mentions →
          SettlesExpr compiler expand registry known fault part) :
    SettlesExpr compiler expand registry known fault e := by
  rcases e with ⟨form, note⟩
  cases form with
  | identifier name =>
      unfold SettlesExpr
      rw [expr, Expr.mentions]
      refine (hNames name (by simp [Expr.mentions]) note).imp ?_
        fun _ => id
      simp
  | object members =>
      rw [Expr.isSimple, Expr.membersAreSimple_eq,
        List.all_eq_true] at hSimple
      refine settles_object (fun member hMember => ?_) note
      rcases Member.exists_of_isPlainWith (hSimple member hMember) with
        ⟨key, computed, value, span, comments, rfl, hPlain, hValue⟩
      have hSize := List.sizeOf_lt_of_mem hMember
      refine ⟨hPlain, Expr.not_isUndefined_of_isSimple hValue,
        hSmaller value ?_ hValue fun name hName => ?_⟩
      · simp at hSize ⊢
        omega
      · rw [Expr.mentions]
        exact Expr.mem_membersMention hMember hName
  | array elements =>
      rw [Expr.isSimple, Expr.allAreSimple_eq,
        List.all_eq_true] at hSimple
      unfold SettlesExpr
      rw [expr, Expr.mentions]
      refine settles_array (fun element hMember => ?_)
        fun element hMember =>
          Expr.not_isSpread_of_isSimple (hSimple element hMember)
      have hSize := List.sizeOf_lt_of_mem hMember
      refine hSmaller element ?_ (hSimple element hMember)
        fun name hName => ?_
      · simp
        omega
      · rw [Expr.mentions]
        exact Expr.mem_allMention hMember hName
  | logical op left right =>
      refine settles_logical hSimple fun leaf hLeaf => ?_
      have hSize := List.sizeOf_lt_of_mem hLeaf
      have hLeaves := Chain.sizeOf_leaves op left right note
      refine hSmaller leaf (Nat.lt_trans hSize hLeaves)
        (Expr.isSimple_closedUnder.of_mem_leaves hSimple hLeaf)
        fun name hName => ?_
      rw [← Expr.allMention_leavesAt true ⟨.logical op left right, note⟩]
      exact Expr.mem_allMention hLeaf hName
  | _ => cases hSimple

/-
  A simple expression is compiled if all names that it mentions are
  resolved, and otherwise fails as one of them does.
-/
theorem settles_expr
    {e : Expr}
    (hSimple : e.isSimple = true)
    (hNames :
      ∀ name ∈ e.mentions, ∀ note,
        Settles registry (resolve expand ⟨.identifier name, note⟩)
          (known name) fault) :
    SettlesExpr compiler expand registry known fault e := by
  induction hSize : sizeOf e using Nat.strongRecOn generalizing e with
  | ind size ih =>
      apply settles_of_smaller hSimple hNames
      intro part hPart hPartSimple hMentions
      exact ih (sizeOf part) (hSize ▸ hPart) hPartSimple
        (fun name hName => hNames name (hMentions hName)) rfl

end Compile

end SchemaLang
