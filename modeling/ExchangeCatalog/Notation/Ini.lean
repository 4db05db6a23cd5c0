import ExchangeCatalog.Json.Basic
import ExchangeCatalog.Text.Blank
import ExchangeCatalog.Text.Split

/-!
# Sections of assignments

An `ini` file is a row of lines: assignments of a text to a key, under headings in brackets. The
assignments before the first heading belong to no section. Comments stand on lines of their own.

## Main definitions

* `Ini.read?` — the sections of a text as an object of objects
-/

namespace ExchangeCatalog.Ini

/-- A line of a file. -/
inductive Line
  | heading (name : String)
  | assignment (key value : String)

private def trimmed (cs : List Char) : String := String.ofList (Text.trim cs)

/-- A text as it is assigned: without blanks around it and without the quotes that enclose it. -/
private def assigned (cs : List Char) : String :=
  match Text.trim cs with
  | '"' :: rest => String.ofList (rest.takeWhile fun c => c != '"')
  | '\'' :: rest => String.ofList (rest.takeWhile fun c => c != '\'')
  | cs => String.ofList cs

/-- The line that a text spells: nothing for a line without meaning, and an error for one that
spells nothing. -/
def line? (cs : List Char) : Except Unit (Option Line) :=
  match Text.trim cs with
  | [] | ';' :: _ | '#' :: _ => .ok none
  | '[' :: rest =>
    match Text.cutFirst? ']' rest with
    | some (name, _) => .ok (some (.heading (trimmed name)))
    | none => .error ()
  | cs =>
    let isMark := fun (c : Char) => c == '=' || c == ':'
    match trimmed (cs.takeWhile fun c => !isMark c), cs.dropWhile fun c => !isMark c with
    | _, [] => .error ()
    | key, _ :: value =>
      if key = "" then .error () else .ok (some (.assignment key (assigned value)))

/-- The members of a file: its assignments before the first heading, and an object for each section.
The section in hand comes with its assignments in reverse. -/
private def members (section? : Option String) (acc : List (String × Json)) :
    List Line → List (String × Json)
  | [] => finish acc
  | .heading name :: lines => finish acc ++ members (some name) [] lines
  | .assignment key value :: lines => members section? ((key, .string value) :: acc) lines
where
  finish (acc : List (String × Json)) : List (String × Json) :=
    match section? with
    | some name => [(name, .object acc.reverse)]
    | none => acc.reverse

/-- The sections of a text as an object of objects, if every line spells something. -/
def read? (s : String) : Option Json :=
  match (Text.pieces '\n' s.toList).mapM line? with
  | .ok lines => some (.object (members none [] (lines.filterMap id)))
  | .error () => none

end ExchangeCatalog.Ini
