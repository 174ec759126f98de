import Comfort.Json.Decode
import Comfort.Line.Labels
import Comfort.Schema.Node
import Comfort.Toml.Printer
import Comfort.Toml.Reader

/-!
The configuration and its forms in TOML and JSON.

Only the store has to be named.  All other settings have defaults, and settings that are not known
are ignored.
-/

namespace Comfort

structure Config where
  /-- The file that holds the schemas and motes. -/
  storePath : String
  comfortSchemaId : String := Schema.comfortId
  questSchemaId : String := Schema.questId
  globalLabels : List String := GlobalLabels.defaultNames
  checkSpelling : Bool := true
  deriving DecidableEq

namespace Config

open Json (record? defaulted? string? strings? bool?)

/-! ## JSON -/

def toJson (c : Config) : Json :=
  .obj
    [("store_path", .str c.storePath), ("comfort_schema_id", .str c.comfortSchemaId),
      ("quest_schema_id", .str c.questSchemaId), ("global_labels", .strings c.globalLabels),
      ("check_spelling", .bool c.checkSpelling)]

def ofJson? (j : Json) : Option Config := do
  let [storePath, comfortSchemaId, questSchemaId, globalLabels, checkSpelling] ←
    record?
      ["store_path", "comfort_schema_id", "quest_schema_id", "global_labels", "check_spelling"] 1 j
    | none
  let storePath ← storePath >>= string?
  let default : Config := { storePath := storePath }
  let comfortSchemaId ← defaulted? default.comfortSchemaId string? comfortSchemaId
  let questSchemaId ← defaulted? default.questSchemaId string? questSchemaId
  let globalLabels ← defaulted? default.globalLabels strings? globalLabels
  let checkSpelling ← defaulted? default.checkSpelling bool? checkSpelling
  return { storePath := storePath, comfortSchemaId := comfortSchemaId,
           questSchemaId := questSchemaId, globalLabels := globalLabels,
           checkSpelling := checkSpelling }

/-! ## TOML -/

def tomlString? : Toml.Value → Option String
  | .string s => some s
  | _ => none

def tomlBoolean? : Toml.Value → Option Bool
  | .boolean b => some b
  | _ => none

def tomlStrings? : Toml.Value → Option (List String)
  | .array items => items.mapM tomlString?
  | _ => none

def setting? {α : Type} (entries : Toml.Entries) (key : String) (default : α)
    (decode : Toml.Value → Option α) : Option α :=
  match Keyed.find? key entries with
  | none => some default
  | some v => decode v

def ofToml? (entries : Toml.Entries) : Option Config := do
  let storePath ← Keyed.find? "store_path" entries >>= tomlString?
  let default : Config := { storePath := storePath }
  let comfortSchemaId ← setting? entries "comfort_schema_id" default.comfortSchemaId tomlString?
  let questSchemaId ← setting? entries "quest_schema_id" default.questSchemaId tomlString?
  let globalLabels ← setting? entries "global_labels" default.globalLabels tomlStrings?
  let checkSpelling ← setting? entries "check_spelling" default.checkSpelling tomlBoolean?
  return { storePath := storePath, comfortSchemaId := comfortSchemaId,
           questSchemaId := questSchemaId, globalLabels := globalLabels,
           checkSpelling := checkSpelling }

def ofText? (text : String) : Option Config :=
  (Toml.read? text.toList).bind ofToml?

/-- The text of a configuration, with a line for each setting. -/
def text (c : Config) : String :=
  String.ofList
    (Toml.setting "store_path" (Toml.stringText c.storePath.toList)
      ++ Toml.setting "comfort_schema_id" (Toml.stringText c.comfortSchemaId.toList)
      ++ Toml.setting "quest_schema_id" (Toml.stringText c.questSchemaId.toList)
      ++ Toml.setting "global_labels" (Toml.stringsText (c.globalLabels.map String.toList))
      ++ Toml.setting "check_spelling"
        (if c.checkSpelling then ['t', 'r', 'u', 'e'] else ['f', 'a', 'l', 's', 'e']))

end Config
end Comfort
