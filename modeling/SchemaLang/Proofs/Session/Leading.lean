import SchemaLang.Proofs.Compile.Leading
import SchemaLang.Proofs.Session.Reachable

/-
  Where title and description stand in what sessions compile, without
  calls and without objects that are taken as written. A title has only
  names in front of it. So has a description, unless it came with a
  schema that was spread into an object literal.

  Main declarations:
    * `Expr.isDirect` and `Expr.isSpreadless`
    * `Standard.admits_of_direct`
    * `Session.names_lead_iff_unspread`
    * `Session.description_behind_type`
-/

namespace SchemaLang

------------------------------------------------------------
-- Expressions Without Calls
------------------------------------------------------------

/- Whether a member is a spread. -/
def Member.isSpread : Member → Bool
  | spread _ => true
  | property _ _ _ _ _ => false

namespace Expr

/- Whether an expression takes another one as it is written. -/
def isDoubleNot : Expr → Bool
  | ⟨.unary .not ⟨.unary .not _, _⟩, _⟩ => true
  | _ => false

/- Whether nothing is called or taken as written in an expression. -/
def isDirect
    (e : Expr) : Bool :=
  e.parts.all fun part => !part.isCall && !part.isDoubleNot

/- Whether an expression is an object literal with a spread. -/
def spreads : Expr → Bool
  | ⟨.object members, _⟩ => members.any Member.isSpread
  | _ => false

/- Whether there is no such literal within an expression. -/
def isSpreadless
    (e : Expr) : Bool :=
  e.parts.all fun part => !part.spreads

/- What holds of all parts of an expression holds of their parts. -/
theorem all_parts_of_mem
    {holds : Expr → Bool}
    {e part : Expr}
    (hAll : e.parts.all holds = true)
    (hPart : part ∈ e.parts) :
    part.parts.all holds = true :=
  List.all_eq_true.mpr fun inner hInner =>
    List.all_eq_true.mp hAll inner (mem_parts_trans hInner hPart)

end Expr

------------------------------------------------------------
-- Standards For Names
------------------------------------------------------------

namespace Standard

/- Titles have only names in front of them. -/
def leadingTitles : Standard :=
  { titles := true }

/- So have descriptions. -/
def leadingNames : Standard :=
  { titles := true, descriptions := true }

theorem Met.leadsWith
    {standard : Standard}
    {schema : Schema}
    (hMet : standard.Met schema)
    {name : String}
    (hName : standard.leading name = true) :
    schema.LeadsWith name := by
  cases schema with
  | object fields =>
      refine (hMet.leads fields rfl).imp fun hLeads hSame => ?_
      exact hLeads (hSame ▸ hName)
  | _ => exact .nil

/- A standard for names admits what is direct, but perhaps no spread. -/
theorem admits_of_direct
    {standard : Standard}
    (hRemovals : standard.removals = true)
    (version : Version)
    {e : Expr}
    (hDirect : (!e.isCall && !e.isDoubleNot) = true)
    (hSpreads : standard.descriptions = true → e.spreads = false) :
    standard.Admits { version := version } e := by
  unfold Admits
  split
  · cases hDirect
  · rename_i members note
    intro member hMember
    cases member with
    | spread argument =>
        refine Bool.eq_false_iff.mpr fun hDescriptions => ?_
        have hNone := List.any_eq_false.mp (hSpreads hDescriptions)
        exact hNone _ hMember rfl
    | property key computed value span comments =>
        intro name entry _ hDirective
        have hEntry := (Compile.mem_of_directive? hDirective).1
        exact upholds_shared entry hEntry fun _ => hRemovals
  · cases hDirect
  · cases hDirect
  · trivial

theorem admits_leadingTitles
    (version : Version)
    (e : Expr)
    (hDirect : e.isDirect = true) :
    ∀ part ∈ e.parts, leadingTitles.Admits { version := version } part :=
  fun part hPart =>
    admits_of_direct rfl version (List.all_eq_true.mp hDirect part hPart) nofun

end Standard

------------------------------------------------------------
-- Sessions
------------------------------------------------------------

namespace Session

open Compile (outcome Spreads expandWithin)

variable {version : Version}
variable {session : Session}

theorem titles_lead
    (hReachable : Reachable version (fun e => e.isDirect = true) session) :
    (∀ name schema,
      session.registry.get? name = some (.compiled schema) →
        schema.LeadsWith "title") ∧
      ∀ e schema after, e.isDirect = true →
        session.compileTree e = (.ok schema, after) →
          schema.LeadsWith "title" := by
  rcases hReachable.met (Standard.admits_leadingTitles version)
      (fun _ _ => Expr.all_parts_of_mem) with ⟨hNames, hResults⟩
  exact ⟨fun name schema hGet => (hNames name schema hGet).leadsWith rfl,
    fun e schema after hDirect hEnds =>
      (hResults e schema after hDirect hEnds).leadsWith rfl⟩

theorem names_lead_of_spreadless
    (hReachable :
      Reachable version
        (fun e => e.isDirect = true ∧ e.isSpreadless = true) session) :
    (∀ name schema,
      session.registry.get? name = some (.compiled schema) →
        schema.NamesLead) ∧
      ∀ e schema after, e.isDirect = true → e.isSpreadless = true →
        session.compileTree e = (.ok schema, after) →
          schema.NamesLead := by
  have hAdmitted :
      ∀ e : Expr, e.isDirect = true ∧ e.isSpreadless = true →
        ∀ part ∈ e.parts,
          Standard.leadingNames.Admits { version := version } part := by
    intro e hAllowed part hPart
    refine Standard.admits_of_direct rfl version
      (List.all_eq_true.mp hAllowed.1 part hPart) fun _ => ?_
    simpa using List.all_eq_true.mp hAllowed.2 part hPart
  have hWithin :
      ∀ e part : Expr, e.isDirect = true ∧ e.isSpreadless = true →
        part ∈ e.parts → part.isDirect = true ∧ part.isSpreadless = true :=
    fun _ _ hAllowed hPart =>
      ⟨Expr.all_parts_of_mem hAllowed.1 hPart,
        Expr.all_parts_of_mem hAllowed.2 hPart⟩
  rcases hReachable.met hAdmitted hWithin with ⟨hNames, hResults⟩
  constructor
  · intro name schema hGet
    have hMet := hNames name schema hGet
    exact ⟨hMet.leadsWith rfl, hMet.leadsWith rfl⟩
  · intro e schema after hDirect hSpreadless hEnds
    have hMet := hResults e schema after ⟨hDirect, hSpreadless⟩ hEnds
    exact ⟨hMet.leadsWith rfl, hMet.leadsWith rfl⟩

/- A direct object literal spreads nothing that is taken as written. -/
theorem spreadsLiteral_of_direct
    {members : List Member}
    {note : Note}
    (hDirect : (⟨.object members, note⟩ : Expr).isDirect = true) :
    ∀ member ∈ members, member.spreadsLiteral = false := by
  intro member hMember
  unfold Member.spreadsLiteral
  split
  · rename_i inner deeper middle outer last
    have hPart :
        (⟨.unary .not ⟨.unary .not ⟨.object inner, deeper⟩, middle⟩,
          outer⟩ : Expr) ∈ (⟨.object members, note⟩ : Expr).parts := by
      refine List.mem_cons_of_mem _ ?_
      rw [Form.parts, Member.partsOfAll_eq]
      refine List.mem_flatMap_of_mem hMember ?_
      simp [Member.parts]
    cases List.all_eq_true.mp hDirect _ hPart
  · rfl

theorem namesLead_compileTree_iff
    (hCompiler : session.compiler = { version := version })
    {members : List Member}
    {note : Note}
    (hDirect : (⟨.object members, note⟩ : Expr).isDirect = true)
    {schema : Schema}
    {after : Session}
    (hEnds :
      session.compileTree ⟨.object members, note⟩ = (.ok schema, after)) :
    schema.NamesLead ↔
      ∀ source,
        Spreads session.compiler
            (expandWithin session.compiler session.registry.declaredNames)
            none Fields.skeleton session.registry members source →
          source.get? "description" = none := by
  rcases hOutcome :
      outcome (Compile.compile session.compiler ⟨.object members, note⟩)
        session.registry with ⟨result, registry⟩
  rw [compileTree_of_outcome hOutcome] at hEnds
  rw [Compile.outcome_compile, hCompiler] at hOutcome
  cases result with
  | error error => cases hEnds
  | ok inner =>
      cases hEnds
      rw [hCompiler]
      exact Compile.namesLead_object_iff (spreadsLiteral_of_direct hDirect)
        hOutcome _

/-
  Without calls and without objects that are taken as written, a title
  has only names in front of it, in all that a session compiles and
  names. If there is no spread in an object literal either, then the
  same holds of a description. And a description comes first in what an
  object literal is compiled to, exactly if none of the schemas that are
  spread into it has a description.
-/
theorem names_lead_iff_unspread
    (version : Version) :
    (∀ session,
      Reachable version (fun e => e.isDirect = true) session →
        (∀ name schema,
          session.registry.get? name = some (.compiled schema) →
            schema.LeadsWith "title") ∧
          ∀ e schema after, e.isDirect = true →
            session.compileTree e = (.ok schema, after) →
              schema.LeadsWith "title") ∧
      (∀ session,
        Reachable version
            (fun e => e.isDirect = true ∧ e.isSpreadless = true) session →
          (∀ name schema,
            session.registry.get? name = some (.compiled schema) →
              schema.NamesLead) ∧
            ∀ e schema after, e.isDirect = true → e.isSpreadless = true →
              session.compileTree e = (.ok schema, after) →
                schema.NamesLead) ∧
      ∀ session members note schema after,
        Reachable version (fun e => e.isDirect = true) session →
          (⟨.object members, note⟩ : Expr).isDirect = true →
            session.compileTree ⟨.object members, note⟩ =
                (.ok schema, after) →
              (schema.NamesLead ↔
                ∀ source,
                  Spreads session.compiler
                      (expandWithin session.compiler
                        session.registry.declaredNames)
                      none Fields.skeleton session.registry members
                      source →
                    source.get? "description" = none) := by
  refine ⟨fun session => titles_lead,
    fun session => names_lead_of_spreadless, ?_⟩
  intro session members note schema after hReachable hDirect hEnds
  have hKeeps := hReachable.keeps (Standard.admits_leadingTitles version)
    fun _ _ => Expr.all_parts_of_mem
  exact namesLead_compileTree_iff hKeeps.compiler hDirect hEnds

/- `X = {}`, with a comment. -/
def notedObject : Expr :=
  ⟨.assignment .assign ⟨.identifier "X", {}⟩ ⟨.object [], {}⟩,
    { comments := noteComment }⟩

/- `{ ...X }`. -/
def spreadObject : Expr :=
  ⟨.object [.spread ⟨.spread ⟨.identifier "X", {}⟩, {}⟩], {}⟩

/- What `X` stands for then. -/
def notedObjectSchema : Schema :=
  .object
    ((Fields.skeleton.insertFirst "title" (.string "X")).insertFirst
      "description" (.string "note"))

/- The session in which `X` has its name. -/
def notedSession : Session :=
  { registry := Registry.initial.define "X" notedObjectSchema }

theorem compileTree_notedObject :
    ({} : Session).compileTree notedObject =
      (.ok notedObjectSchema, notedSession) := by
  unfold compileTree run Compile.compile notedObject
  simp only [Compile.expr, Compile.memberList, Compile.register]
  rfl

theorem compileTree_spreadObject :
    notedSession.compileTree spreadObject =
      (.ok (.object (Fields.skeleton.insert "description"
        (.string "note"))), notedSession) := by
  unfold compileTree run Compile.compile spreadObject
  simp only [Compile.expr, Compile.memberList, Compile.spreadInto,
    Compile.resolve]
  rfl

theorem reachable_notedSession
    {allowed : Expr → Prop}
    (hAllowed : allowed notedObject) :
    Reachable .draft07 allowed notedSession := by
  have hStep :
      Step allowed {} (({} : Session).compileTree notedObject).2 :=
    .compiled notedObject hAllowed
  rw [compileTree_notedObject] at hStep
  exact .single hStep

/- What `X` stands for has its names in front, and is what is spread. -/
theorem names_lead_iff_unspread_noted :
    notedObject.isDirect = true ∧ notedObject.isSpreadless = true ∧
      notedObjectSchema.NamesLead ∧
        ∃ source,
          Spreads {} (expandWithin {} notedSession.registry.declaredNames)
              none Fields.skeleton notedSession.registry
              [.spread ⟨.spread ⟨.identifier "X", {}⟩, {}⟩] source ∧
            source.get? "description" ≠ none := by
  rcases names_lead_iff_unspread .draft07 with ⟨-, hNames, hObject⟩
  have hAllowed :
      notedObject.isDirect = true ∧ notedObject.isSpreadless = true := by
    decide
  refine ⟨hAllowed.1, hAllowed.2, ?_, ?_⟩
  · exact (hNames notedSession (reachable_notedSession hAllowed)).1 "X" _
      rfl
  · have hIff := hObject notedSession _ {} _ _
      (reachable_notedSession hAllowed.1) (by decide)
      compileTree_spreadObject
    by_contra hNone
    have hBehind :
        ¬(Schema.object (Fields.skeleton.insert "description"
          (.string "note"))).NamesLead := by
      decide
    refine hBehind (hIff.mpr fun source hSpreads => ?_)
    by_contra hDescribed
    exact hNone ⟨source, hSpreads, hDescribed⟩

/-
  A description that came with a spread stands behind the type, though
  nothing is called or taken as written.
-/
theorem description_behind_type :
    Reachable .draft07 (fun e => e.isDirect = true) notedSession ∧
      spreadObject.isDirect = true ∧
        ∃ schema,
          notedSession.compileTree spreadObject =
              (.ok schema, notedSession) ∧
            ¬schema.NamesLead :=
  ⟨reachable_notedSession (by decide), by decide, _,
    compileTree_spreadObject, by decide⟩

end Session

end SchemaLang
