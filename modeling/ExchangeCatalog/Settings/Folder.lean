import ExchangeCatalog.Settings.Format
import ExchangeCatalog.Text.Split

/-!
# The settings folder

A settings file is asked for by a name. The file with just this name comes first; if there is none,
the endings of the known formats are put behind the name in turn. The ending of the file that is
found tells its format; a file without a known ending counts as missing.

## Main definitions

* `Folder.places` — the paths at which a file is looked for
* `Folder.layer?` — the layer of the file of a name
* `Folder`, `Folder.fileAt?` — the files of a folder, and what a path leads to in it
-/

namespace ExchangeCatalog

/-- The files of the settings folder by their names in it; of two with one name the later counts. -/
abbrev Folder := List (String × String)

namespace Folder

/-- The name of the settings folder. -/
def folderName : String := "config"

/-- The names of a path, from the outermost folder on. -/
def pathNames (path : String) : List String :=
  ((Text.pieces '/' path.toList).filter fun p => p ≠ [] && p ≠ ['.']).map String.ofList

/-- A path of names. -/
def pathOf (names : List String) : String := String.intercalate "/" names

/-- What stands behind the last point of a file's name, unless the name starts with that point. -/
def ending? (name : String) : Option String :=
  match Text.cutLast? '.' name.toList with
  | some (_ :: _, ending) => if name = ".." then none else some (String.ofList ending)
  | _ => none

/-- The format that the ending of a path tells. -/
def formatOf? (path : String) : Option FileFormat := do
  let ending ← (pathNames path).getLast?.bind ending?
  FileFormat.all.find? fun f => f.endings.contains ending

/-- The paths, with their formats, at which the settings file of a name is looked for. The server
does not promise an order among the formats; here TOML comes first, which makes a difference only to
a folder with files of one name in several formats. -/
def places (name : String) : List (String × Option FileFormat) :=
  let path := folderName ++ "/" ++ name
  let names := pathNames path
  let withEndings :=
    if names.getLast? = some ".." then []
    else
      FileFormat.all.flatMap fun f =>
        f.endings.map fun ending => (pathOf names ++ "." ++ ending, some f)
  (path, formatOf? path) :: withEndings

/-- The layer of the settings file of a name, where `fileAt?` gives the text at a path: an empty one
when there is no such file, and nothing when the file cannot be read. A byte order mark in front of
the file does not count. -/
def layer? (fileAt? : String → Option String) (name : String) : Option Setting.Layer :=
  let found? := (places name).findSome? fun (path, format) =>
    (fileAt? path).map fun text => (path, format, text)
  match found? with
  | some (path, some format, text) =>
    format.layer? (.file (pathOf (pathNames path))) (String.ofList (Utf8.withoutMark text.toList))
  | _ => some []

/-- The place that a path leads to: its names from the innermost on, after those of the folder where
it starts. Every name on its way has to be a folder's, and it may not lead out of the working
directory. -/
def place? (isFolder : List String → Bool) (start : List String) :
    List String → Option (List String)
  | [] => none
  | [last] => if last = "" ∨ last = "." ∨ last = ".." then none else some (last :: start)
  | name :: names =>
    if name = "" ∨ name = "." then place? isFolder start names
    else if name = ".." then
      match start with
      | [] => none
      | _ :: outer => place? isFolder outer names
    else if isFolder (name :: start) then place? isFolder (name :: start) names
    else none

/-- The text of the file that a path leads to from the working directory, in which the settings
folder stands. -/
def fileAt? (folder : Folder) (path : String) : Option String :=
  let stepsOf := fun (path : String) => (Text.pieces '/' path.toList).map String.ofList
  let files := folder.filterMap fun (name, text) =>
    (place? (fun _ => true) [folderName] (stepsOf name)).map fun place => (place, text)
  let isFolder := fun (place : List String) =>
    place == [folderName] || files.any fun f => place.isSuffixOf f.1.tail
  (place? isFolder [] (stepsOf path)).bind fun place =>
    (files.reverse.find? fun f => f.1 == place).map Prod.snd

end Folder

end ExchangeCatalog
