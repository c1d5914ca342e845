import ApiProjection.Api.Reader.Schema
import ApiProjection.Json.Basic
/-!
# Settings

`Settings` are the defaults of the program as they are kept in a file: a JSON object in which every
member may be left out and members that are no settings are passed over.
-/
namespace ApiProjection

open Record

/-- How output is written. -/
structure OutputSettings where
  format : String := "auto"
  document : String := "json"
  deriving DecidableEq, Repr

structure Settings where
  target : String := "3.0.4"
  strict : Bool := false
  validate : Bool := false
  /-- The files of meta-schemas by the names of versions. -/
  metaSchemas : List (String × String) := []
  output : OutputSettings := {}
  deriving DecidableEq, Repr

/-- Entries of a plain value, for a record that passes over other keys. -/
def Record.Fields.readLenient {α : Type} (name : String) (fields : Fields Value α) (v : Value) : Read α :=
  fields.lenient name v (match v with | .map es => some es | _ => none)

namespace OutputSettings

/-- The name of the record in messages. -/
def recordName : String := "OutputConfig"

def fields : Fields Value OutputSettings :=
  OutputSettings.mk <$> .optional ["format"] "auto" readText <*> .optional ["document"] "json" readText

def read : Value → Read OutputSettings := fields.readLenient recordName

def toJson (o : OutputSettings) : Json := .object [("format", .text o.format), ("document", .text o.document)]

end OutputSettings

namespace Settings

/-- The name of the record in messages. -/
def recordName : String := "GlobalConfig"

def fields : Fields Value Settings :=
  Settings.mk <$> .optional ["target"] "3.0.4" readText <*> .flag ["strict_downlevel"] <*>
    .flag ["validate_spec"] <*> .optional ["meta_schemas"] [] (mapOf readText) <*>
    .optional ["output"] {} OutputSettings.read

def read : Value → Read Settings := fields.readLenient recordName

/-- The settings with every member written out. -/
def toJson (s : Settings) : Json :=
  .object [("target", .text s.target), ("strict_downlevel", .bool s.strict),
    ("validate_spec", .bool s.validate),
    ("meta_schemas", .object (s.metaSchemas.map fun (k, v) => (k, .text v))),
    ("output", s.output.toJson)]

end Settings
end ApiProjection
