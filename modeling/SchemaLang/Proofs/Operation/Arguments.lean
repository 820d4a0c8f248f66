import Mathlib.Data.List.Forall2
import SchemaLang.Operation.Call
import SchemaLang.Proofs.Expr.Likeness

/-
  Calls that are alike. What is read off their arguments matches, and
  the same is wrong with them.

  Main declarations:
    * `Call.Like`
    * `Call.Like.oneString`, `Call.Like.oneNumber` and
      `Call.Like.oneBoolean`
    * `Call.Like.selection`
    * `Call.Like.requirement`
    * `Call.matches_memberNames`
-/

namespace SchemaLang

namespace Call

variable {likeness : Likeness}
variable {call call' : Call}
variable {arg arg' : Expr}
variable {args args' : List Expr}
variable {members members' : List Member}

/- Two calls have the same name, and arguments that are alike. -/
structure Like
    (likeness : Likeness)
    (call call' : Call) : Prop where
  name : call.name = call'.name
  args : List.Forall₂ likeness.like call.args call'.args
  span : likeness.located call.span call'.span

namespace Like

------------------------------------------------------------
-- Faults
------------------------------------------------------------

theorem fault {α β : Type}
    {matched : α → β → Prop}
    (hCall : Like likeness call call')
    (fault : ArgumentFault) :
    Matches likeness.located matched (call.fault fault)
      (call'.fault fault) := by
  unfold Call.fault Call.error
  rw [hCall.name]
  exact .error _ hCall.span

theorem need {α β : Type}
    {matched : α → β → Prop}
    (hCall : Like likeness call call')
    (fault : ArgumentFault)
    {value : Option α}
    {value' : Option β}
    (hValue : Option.Rel matched value value') :
    Matches likeness.located matched (call.need fault value)
      (call'.need fault value') := by
  cases hValue with
  | some hMatched => exact .ok hMatched
  | none => exact hCall.fault fault

/- A value that both calls have in common, or else a fault. -/
theorem need_eq {α : Type}
    (hCall : Like likeness call call')
    (fault : ArgumentFault)
    {value value' : Option α}
    (hValue : value = value') :
    Matches likeness.located Eq (call.need fault value)
      (call'.need fault value') := by
  subst hValue
  cases value with
  | some value => exact .ok rfl
  | none => exact hCall.fault fault

------------------------------------------------------------
-- One Argument
------------------------------------------------------------

theorem oneArg
    (hCall : Like likeness call call') :
    Matches likeness.located likeness.like call.oneArg call'.oneArg := by
  have hArgs := hCall.args
  unfold Call.oneArg
  generalize call.args = args at hArgs ⊢
  generalize call'.args = args' at hArgs ⊢
  cases hArgs with
  | nil => exact hCall.fault _
  | cons hFirst hRest =>
      cases hRest with
      | nil => exact .ok hFirst
      | cons _ _ => exact hCall.fault _

theorem atLeastOne
    (hCall : Like likeness call call') :
    Matches likeness.located Eq call.atLeastOne call'.atLeastOne := by
  have hArgs := hCall.args
  unfold Call.atLeastOne
  generalize call.args = args at hArgs ⊢
  generalize call'.args = args' at hArgs ⊢
  cases hArgs with
  | nil => exact hCall.fault _
  | cons hFirst hRest => exact .ok rfl

theorem firstString
    (hCall : Like likeness call call')
    (hArg : likeness.like arg arg') :
    Matches likeness.located Eq (call.firstString arg)
      (call'.firstString arg') :=
  hCall.need_eq _ (Likeness.string? hArg)

theorem oneString
    (hCall : Like likeness call call') :
    Matches likeness.located Eq call.oneString call'.oneString :=
  hCall.oneArg.bind fun _ _ hArg => hCall.firstString hArg

theorem oneBoolean
    (hCall : Like likeness call call') :
    Matches likeness.located Eq call.oneBoolean call'.oneBoolean :=
  hCall.oneArg.bind fun _ _ hArg =>
    hCall.need_eq _ (Likeness.boolean? hArg)

/- The numbers are written alike. -/
theorem oneNumber
    (hCall : Like likeness call call') :
    Matches likeness.located
      (fun value value' =>
        Schema.ofBinary64 value = Schema.ofBinary64 value')
      call.oneNumber call'.oneNumber := by
  refine hCall.oneArg.bind fun arg arg' hArg => hCall.need _ ?_
  rcases Likeness.number_cases hArg with
    ⟨hNone, hNone'⟩ | ⟨value, value', hSome, hSome', hValue⟩
  · rw [hNone, hNone']
    exact .none
  · rw [hSome, hSome']
    exact .some hValue

theorem onePattern
    (hCall : Like likeness call call') :
    Matches likeness.located Eq call.onePattern call'.onePattern := by
  refine hCall.oneArg.bind fun arg arg' hArg => ?_
  have hForm := likeness.form hArg
  have hString := hCall.firstString hArg
  rcases arg with ⟨form, note⟩
  rcases arg' with ⟨form', note'⟩
  cases hForm with
  | regex pattern flags => exact .ok rfl
  | _ => exact hString

------------------------------------------------------------
-- Many Arguments
------------------------------------------------------------

theorem stringsOr
    (hCall : Like likeness call call')
    (fault : ArgumentFault)
    (hArgs : List.Forall₂ likeness.like args args') :
    Matches likeness.located Eq (call.stringsOr fault args)
      (call'.stringsOr fault args') := by
  induction hArgs with
  | nil => exact .ok rfl
  | cons hArg _ ih =>
      rw [Call.stringsOr, Call.stringsOr]
      refine (hCall.need_eq _ (Likeness.string? hArg)).bind ?_
      rintro first _ rfl
      refine ih.bind ?_
      rintro others _ rfl
      exact .ok rfl

theorem onlyStrings
    (hCall : Like likeness call call') :
    Matches likeness.located Eq call.onlyStrings call'.onlyStrings :=
  hCall.stringsOr _ hCall.args

theorem selectMembers
    (hCall : Like likeness call call')
    (hMembers :
      List.Forall₂ (Member.Like likeness.located likeness.like) members
        members')
    (selected : Selection) :
    Matches likeness.located Eq (call.selectMembers selected members)
      (call'.selectMembers selected members') := by
  induction hMembers generalizing selected with
  | nil => exact .ok rfl
  | cons hMember _ ih =>
      cases hMember with
      | property hKey computed hValue hSpan comments comments' =>
          rw [Call.selectMembers.eq_def, Call.selectMembers.eq_def call']
          dsimp only
          rw [Likeness.name?_eq hKey, Likeness.string? hValue]
          split
          · exact ih _
          · exact hCall.fault _
      | spread hSpread =>
          rw [Call.selectMembers, Call.selectMembers]
          exact hCall.fault _

theorem selectItems
    (hCall : Like likeness call call')
    (hArgs : List.Forall₂ likeness.like args args')
    (selected : Selection) :
    Matches likeness.located Eq (call.selectItems selected args)
      (call'.selectItems selected args') := by
  induction hArgs generalizing selected with
  | nil => exact .ok rfl
  | @cons arg arg' rest rest' hArg _ ih =>
      have hForm := likeness.form hArg
      rcases arg with ⟨form, note⟩
      rcases arg' with ⟨form', note'⟩
      cases hForm with
      | string value =>
          rw [Call.selectItems, Call.selectItems]
          exact ih _
      | object hMembers =>
          rw [Call.selectItems, Call.selectItems]
          refine (hCall.selectMembers hMembers selected).bind ?_
          rintro found _ rfl
          exact ih found
      | _ =>
          rw [Call.selectItems, Call.selectItems]
          · exact hCall.fault _
          all_goals simp

/- What an argument holds is alike, if it is an array. -/
theorem flatArg
    (hArg : likeness.like arg arg') :
    List.Forall₂ likeness.like (Call.flatArg arg)
      (Call.flatArg arg') := by
  have hForm := likeness.form hArg
  rcases arg with ⟨form, note⟩
  rcases arg' with ⟨form', note'⟩
  cases hForm with
  | array hElements => exact hElements
  | _ => exact .cons hArg .nil

theorem selection
    (hCall : Like likeness call call') :
    Matches likeness.located Eq call.selection call'.selection :=
  hCall.selectItems
    (List.rel_flatMap hCall.args fun _ _ hArg => flatArg hArg) .empty

theorem requirement
    (hCall : Like likeness call call') :
    Matches likeness.located Eq call.requirement call'.requirement := by
  refine hCall.atLeastOne.bind fun _ _ _ => ?_
  have hNames :
      Matches likeness.located Eq
        (call.onlyStrings >>= fun names => pure (.names names))
        (call'.onlyStrings >>= fun names =>
          pure (Requirement.names names)) := by
    refine hCall.onlyStrings.bind ?_
    rintro names _ rfl
    exact .ok rfl
  have hArgs := hCall.args
  generalize call.args = args at hArgs ⊢
  generalize call'.args = args' at hArgs ⊢
  cases hArgs with
  | nil => exact hNames
  | @cons arg arg' rest rest' hArg hRest =>
      cases hRest with
      | cons _ _ => exact hNames
      | nil =>
          have hForm := likeness.form hArg
          rcases arg with ⟨form, note⟩
          rcases arg' with ⟨form', note'⟩
          cases hForm with
          | string value => exact .ok rfl
          | array hElements =>
              refine (hCall.stringsOr _ hElements).bind ?_
              rintro names _ rfl
              exact .ok rfl
          | _ => exact hCall.fault _

theorem entryFault
    (hCall : Like likeness call call') :
    call.entryFault = call'.entryFault := by
  have hArgs := hCall.args
  unfold Call.entryFault
  generalize call.args = args at hArgs ⊢
  generalize call'.args = args' at hArgs ⊢
  cases hArgs with
  | nil => rfl
  | @cons arg arg' rest rest' hArg hRest =>
      cases hRest with
      | cons _ _ => simp
      | nil =>
          have hForm := likeness.form hArg
          rcases arg with ⟨form, note⟩
          rcases arg' with ⟨form', note'⟩
          cases hForm <;> rfl

end Like

/- The names of members that are alike are the same. -/
theorem matches_memberNames
    (hMembers :
      List.Forall₂ (Member.Like likeness.located likeness.like) members
        members') :
    Matches likeness.located Eq (memberNames members)
      (memberNames members') := by
  induction hMembers with
  | nil => exact .ok rfl
  | cons hMember _ ih =>
      cases hMember with
      | property hKey computed hValue hSpan comments comments' =>
          rw [memberNames, memberNames]
          refine (Likeness.matches_propertyName hKey hSpan).bind ?_
          rintro name _ rfl
          refine ih.bind ?_
          rintro names _ rfl
          exact .ok rfl
      | spread hSpread =>
          rw [memberNames, memberNames]
          exact .error _ (likeness.place hSpread)

end Call

end SchemaLang
