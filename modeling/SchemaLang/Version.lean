/-
  This file defines the drafts that schemas are compiled for.

  Key definitions include:
    * `Version`
    * `Version.text`
    * `Version.ofText?`
-/

namespace SchemaLang

/- A draft. Only the keywords of arrays differ between them. -/
inductive Version
  | draft07
  | draft2019
  | draft2020
  deriving DecidableEq, Repr, Inhabited

namespace Version

/- All drafts. -/
def all : List Version :=
  [draft07, draft2019, draft2020]

/- The short name of a draft. -/
def text : Version → String
  | draft07 => "07"
  | draft2019 => "2019"
  | draft2020 => "2020"

/- The draft with a name. -/
def ofText?
    (name : String) : Option Version :=
  if ["07", "7", "draft-07"].contains name then some draft07
  else if ["2019", "2019-09"].contains name then some draft2019
  else if ["2020", "2020-12"].contains name then some draft2020
  else none

/- The message about a name that no draft has. -/
def unknownMessage
    (name : String) : String :=
  "unknown schema version: " ++ name

end Version

end SchemaLang
