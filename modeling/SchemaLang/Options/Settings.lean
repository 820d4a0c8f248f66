import SchemaLang.OrderedMap
import SchemaLang.Version

/-
  This file defines the options that can be given from outside, in
  a table of settings. How a table is written is not fixed here.

  Key definitions include:
    * `Setting`
    * `Settings`
    * `Options`
    * `Options.ofSettings?`

  Main declarations:
    * `Options.ofSettings?_eq_some_iff`
-/

namespace SchemaLang

/- The value of a setting. Only texts are told apart. -/
inductive Setting
  | text (value : String)
  | other
  | table
  deriving DecidableEq, Repr

/- The settings at the top of a table. -/
abbrev Settings := OrderedMap Setting

/- What can be chosen from outside. -/
structure Options where
  version : Version := .draft07
  deriving DecidableEq, Repr

namespace Options

/- The key that chooses the draft. -/
def versionKey : String := "schema-version"

/-
  The options that settings state. The draft has to be given by its
  short name; other keys are passed over.
-/
def ofSettings?
    (settings : Settings) : Option Options :=
  match settings.get? versionKey with
  | none => some {}
  | some (.text name) =>
    (Version.all.find? fun draft => draft.text == name).map
      fun draft => { version := draft }
  | some _ => none

/- A draft is found by its short name. -/
theorem find?_text_eq_some_iff
    (name : String)
    (version : Version) :
    (Version.all.find? fun draft => draft.text == name) = some version ↔
      name = version.text := by
  constructor
  · intro hFind
    have hText := List.find?_some hFind
    exact (beq_iff_eq.mp hText).symm
  · rintro rfl
    cases version <;> rfl

/-
  Settings state options if they say nothing about the draft, and
  then the defaults, or if they give the short name of the draft.
-/
theorem ofSettings?_eq_some_iff
    (settings : Settings)
    (options : Options) :
    ofSettings? settings = some options ↔
      settings.get? versionKey = none ∧ options = {} ∨
        settings.get? versionKey = some (.text options.version.text) := by
  unfold ofSettings?
  cases settings.get? versionKey with
  | none => simp [eq_comm]
  | some setting =>
      cases setting with
      | text name =>
          obtain ⟨version⟩ := options
          have hFind := find?_text_eq_some_iff name version
          simpa [Option.map_eq_some_iff] using hFind
      | other => simp
      | table => simp

end Options

end SchemaLang
