import ExchangeCatalog.Number.Reader
import ExchangeCatalog.Settings.Tree
import ExchangeCatalog.Text.Lowercase

/-!
# Settings in environment variables

A variable of the environment holds a setting when its name starts with a certain word. The rest of
the name is the setting's path, with two underscores for each point, in letters of any case. The
text of the variable stands for a truth value or a number if it reads as one.

## Main definitions

* `Variable.typed` — the value that a variable's text stands for
* `Variable.settingName?` — the name of the setting that a variable holds
* `Variable.layer` — the settings of the environment
-/

namespace ExchangeCatalog.Variable

/-- The front of the names of the variables that hold settings, in small letters. -/
def nameStart : String := "ibroker__"

/-- The value that a variable's text stands for: a truth value, an integer or a floating-point
number where it reads as one, and else the text. -/
def typed (text : String) : PlainSetting :=
  let word := Text.lowercase text
  if word = "true" then .boolean true
  else if word = "false" then .boolean false
  else match Decimal.int64? text.toList with
    | some n => .integer n.toInt
    | none =>
      match Binary64.read? text.toList with
      | some x => .float x
      | none => .text text

/-- A text with each pair of underscores replaced by a point, from left to right. -/
private def pointed : List Char → List Char
  | '_' :: '_' :: cs => '.' :: pointed cs
  | c :: cs => c :: pointed cs
  | [] => []

/-- The name of the setting that a variable holds, if it holds one. -/
def settingName? (name : String) : Option String :=
  let start := nameStart.toList
  let cs := name.toList
  if (cs.take start.length).map Char.toLower = start then
    some (Text.lowercase (String.ofList (pointed (cs.drop start.length))))
  else none

/-- The layer of the environment's variables; of two that hold one setting the later counts. -/
def layer (vars : List (String × String)) : Setting.Layer :=
  vars.filterMap fun (name, text) =>
    (settingName? name).map fun key => (key, .plain .environment (typed text))

end ExchangeCatalog.Variable
