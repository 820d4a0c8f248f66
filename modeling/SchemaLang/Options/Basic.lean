import SchemaLang.Options.Toml

/-
  This file reads options from texts.

  Key definitions include:
    * `Options.ofText?`
-/

namespace SchemaLang.Options

/- The options that a text of settings states. -/
def ofText?
    (text : String) : Option Options :=
  (Toml.settings? text).bind ofSettings?

end SchemaLang.Options
