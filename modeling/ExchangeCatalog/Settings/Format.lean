import ExchangeCatalog.Json.Reader
import ExchangeCatalog.Notation.Ini
import ExchangeCatalog.Notation.Ron
import ExchangeCatalog.Notation.Yaml
import ExchangeCatalog.Settings.Tree
import ExchangeCatalog.Toml.Document

/-!
# Formats of settings files

A settings file is written in one of several formats, which its ending tells. In each of them its
outermost value has to be a table or an object, whose entries make a layer.

## Main definitions

* `Setting.ofToml`, `Setting.ofJson` — the tree of a value in a file
* `FileFormat` — the formats, with their endings
* `FileFormat.layer?` — the layer of a file's text
-/

namespace ExchangeCatalog

namespace Setting

mutual

/-- The tree of a value in a file. -/
def ofToml (origin : Origin) : Toml → Setting
  | .string s => .plain origin (.text s)
  | .integer n => .plain origin (.integer n)
  | .float x => .plain origin (.float x)
  | .boolean b => .plain origin (.boolean b)
  | .dateTime s => .plain origin (.text s)
  | .array vs => .list origin (ofTomlItems origin vs)
  | .table es => .section origin (ofTomlEntries origin es)

/-- The trees of the items of an array. -/
def ofTomlItems (origin : Origin) : List Toml → List Setting
  | [] => []
  | v :: vs => ofToml origin v :: ofTomlItems origin vs

/-- The trees of the entries of a table. -/
def ofTomlEntries (origin : Origin) : List (String × Toml) → List (String × Setting)
  | [] => []
  | (k, v) :: es => (k, ofToml origin v) :: ofTomlEntries origin es

end

/-- A scalar of a file. An integer beyond a signed word is kept as a floating-point number. -/
def ofScalar : Json.Scalar → PlainSetting
  | .null => .missing
  | .bool b => .boolean b
  | .number (.integer n) =>
    if n < 0x8000000000000000 then .integer n else .float (Binary64.ofDecimal false n.toNat 0)
  | .number (.real x) => .float x
  | .string s => .text s

mutual

/-- The tree of a value in a file. -/
def ofJson (origin : Origin) : Json → Setting
  | .scalar s => .plain origin (ofScalar s)
  | .array vs => .list origin (ofJsonItems origin vs)
  | .object ms => .section origin (ofJsonMembers origin ms)

/-- The trees of the items of an array. -/
def ofJsonItems (origin : Origin) : List Json → List Setting
  | [] => []
  | v :: vs => ofJson origin v :: ofJsonItems origin vs

/-- The trees of the members of an object. -/
def ofJsonMembers (origin : Origin) : List (String × Json) → List (String × Setting)
  | [] => []
  | (k, v) :: ms => (k, ofJson origin v) :: ofJsonMembers origin ms

end

end Setting

/-- A format of settings files. -/
inductive FileFormat
  | toml
  | json
  | yaml
  | ini
  | ron
  | relaxedJson
  deriving DecidableEq, Repr

namespace FileFormat

/-- The known formats. -/
def all : List FileFormat := [toml, json, yaml, ini, ron, relaxedJson]

/-- The endings that tell a format. -/
def endings : FileFormat → List String
  | toml => ["toml"]
  | json => ["json"]
  | yaml => ["yaml", "yml"]
  | ini => ["ini"]
  | ron => ["ron"]
  | relaxedJson => ["json5"]

mutual

/-- Whether a value stands within at most so many brackets and braces. -/
def isShallow : Nat → Json → Bool
  | _, .scalar _ => true
  | 0, _ => false
  | n + 1, .array vs => areShallow n vs
  | n + 1, .object ms => areMembersShallow n ms

/-- Whether all items stand within at most so many brackets and braces. -/
def areShallow : Nat → List Json → Bool
  | _, [] => true
  | n, v :: vs => isShallow n v && areShallow n vs

/-- Whether all members stand within at most so many brackets and braces. -/
def areMembersShallow : Nat → List (String × Json) → Bool
  | _, [] => true
  | n, (_, v) :: ms => isShallow n v && areMembersShallow n ms

end

/-- How many brackets and braces a value of a JSON file may stand in. -/
def jsonDepthLimit : Nat := 127

/-- The layer of a value: its members, of which the last with a name counts. -/
def layerOf? (origin : Origin) (v : Json) : Option Setting.Layer :=
  match v.sorted with
  | .object ms => some (Setting.ofJsonMembers origin ms)
  | _ => none

/-- The layer that a text gives, if it can be read. -/
def layer? (origin : Origin) (text : String) : FileFormat → Option Setting.Layer
  | toml => (Toml.parse? text).map (Setting.ofTomlEntries origin)
  | json =>
    ((Json.read? (Utf8.encode text)).filter (isShallow jsonDepthLimit)).bind (layerOf? origin)
  | yaml => (Yaml.read? text).bind (layerOf? origin)
  | ini => (Ini.read? text).bind (layerOf? origin)
  | ron => (Ron.read? text).bind (layerOf? origin)
  | relaxedJson => (RelaxedJson.read? text).bind (layerOf? origin)

end FileFormat

end ExchangeCatalog
