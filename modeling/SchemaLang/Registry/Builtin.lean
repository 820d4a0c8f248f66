import SchemaLang.Registry.Basic

/-
  This file defines the schemas that have a name from the start.

  Key definitions include:
    * `Registry.builtins`
    * `Registry.isBuiltin`
    * `Registry.initial`
-/

namespace SchemaLang.Registry

/- A schema with a type and further entries. -/
def typed
    (type : String)
    (entries : Pairs Schema) : Schema :=
  .object (.ofList (("type", .string type) :: entries))

/- A day of a month of a year. -/
def datePattern : String :=
  "\\d\x7b4\x7d-[01]\\d-[0-3]\\d"

/- A time of a day, with parts of a second if need be. -/
def clockPattern : String :=
  "(?:[0-2]\\d:[0-5]\\d:[0-5]\\d|23:59:60)(?:\\.\\d+)?"

/- A time zone. -/
def zonePattern : String :=
  "(?:[zZ]|[+-]\\d\x7b2\x7d(?::?\\d\x7b2\x7d)?)"

/- A date, a time and the start of what may follow them. -/
def dateTimePattern : String :=
  "^" ++ datePattern ++ "[tT\\s]" ++ clockPattern ++ zonePattern

/- The schemas that have a name from the start. -/
def builtins : OrderedMap Schema := .of
  [("null", typed "null" []),
    ("object", typed "object" [("additionalProperties", .bool false)]),
    ("array", typed "array" []),
    ("string", typed "string" []),
    ("number", typed "number" []),
    ("int", typed "integer" []),
    ("uint", typed "integer" [("minimum", .number (.integer 0))]),
    ("positive", typed "number" [("minimum", .number (.integer 0))]),
    ("negative", typed "number" [("exclusiveMaximum", .number (.integer 0))]),
    ("id", typed "integer" [("minimum", .number (.integer 1))]),
    ("boolean", typed "boolean" []),
    ("date", typed "string"
      [("pattern", .string ("^" ++ datePattern ++ "$"))]),
    ("time", typed "string"
      [("pattern",
        .string ("^" ++ clockPattern ++ zonePattern ++ "?$"))]),
    ("date-time", typed "string"
      [("pattern", .string (dateTimePattern ++ "?$"))]),
    ("date-time-tz", typed "string"
      [("pattern", .string (dateTimePattern ++ "$"))]),
    ("uri", typed "string" [("format", .string "uri")]),
    ("uri-reference", typed "string" [("format", .string "uri-reference")]),
    ("uri-template", typed "string" [("format", .string "uri-template")]),
    ("email", typed "string" [("format", .string "email")]),
    ("hostname", typed "string" [("format", .string "hostname")]),
    ("filename", typed "string" [("pattern", .string "^[^\\\\/:*?\"<>|]+$")]),
    ("ipv4", typed "string" [("format", .string "ipv4")]),
    ("ipv6", typed "string" [("format", .string "ipv6")]),
    ("regex", typed "string" [("format", .string "regex")]),
    ("uuid", typed "string" [("format", .string "uuid")])]

/- Whether a name is one of those given from the start. -/
def isBuiltin
    (name : String) : Bool :=
  builtins.contains name

/- The registry that holds the schemas named from the start. -/
def initial : Registry :=
  builtins.mapValues .compiled

end SchemaLang.Registry
