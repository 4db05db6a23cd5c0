import ExchangeCatalog.Number.Shortest
import ExchangeCatalog.Settings.Path

/-!
# Trees of settings

Settings come in layers: a file of defaults, a file for the environment, and environment variables.
A layer is a row of settings by name; a later layer replaces the settings that it names and keeps
the others. Together they make a tree, in which each setting remembers where it came from.

## Main definitions

* `Setting` — a tree of settings, with `Setting.overlay` and `Setting.overlayAt`
* `Setting.layered?` — a row of layers put over one another
-/

namespace ExchangeCatalog

/-- Where a setting came from. -/
inductive Origin
  /-- It has no name: a text of its own, or several layers. -/
  | unnamed
  | file (path : String)
  | environment
  deriving DecidableEq, Repr

/-- A setting without parts. -/
inductive PlainSetting
  /-- Nothing stands in its place. -/
  | missing
  | integer (n : Int)
  | float (x : Binary64)
  | boolean (b : Bool)
  | text (s : String)
  deriving DecidableEq, Repr

/-- A tree of settings. -/
inductive Setting
  | plain (origin : Origin) (s : PlainSetting)
  | list (origin : Origin) (items : List Setting)
  | section (origin : Origin) (entries : List (String × Setting))

namespace Setting

/-- A place in a list that nothing has filled. -/
def unfilled : Setting := .plain .unnamed .missing

instance : Inhabited Setting := ⟨unfilled⟩

/-- The setting of a name among entries. -/
def find? (name : String) (es : List (String × Setting)) : Option Setting :=
  (es.find? fun e => e.1 == name).map Prod.snd

/-- The entries with one changed or put at the end. -/
def alter (name : String) (f : Option Setting → Setting) :
    List (String × Setting) → List (String × Setting)
  | [] => [(name, f none)]
  | (k, v) :: es => if k = name then (k, f (some v)) :: es else (k, v) :: alter name f es

/-- The items with the one at a position changed. A list that does not reach to the position is made
longer, at its end or, for a position counted from there, at its front. -/
def alterAt (i : Int) (f : Setting → Setting) (items : List Setting) : List Setting :=
  if 0 ≤ i then
    (items ++ List.replicate (i.toNat + 1 - items.length) unfilled).modify i.toNat f
  else
    let back := (-i).toNat
    (List.replicate (back - items.length) unfilled ++ items).modify (items.length - back) f

/-- The entries of a section, with its origin; anything else has none. -/
def sectionParts : Option Setting → Origin × List (String × Setting)
  | some (.section origin es) => (origin, es)
  | _ => (.unnamed, [])

/-- The items of a list, with its origin; anything else has none. -/
def listParts : Option Setting → Origin × List Setting
  | some (.list origin items) => (origin, items)
  | _ => (.unnamed, [])

mutual

/-- One setting over another. Sections are put together name by name; anything else is replaced. -/
def overlay : Setting → Option Setting → Setting
  | .section _ es, under =>
    let (origin, inner) := sectionParts under
    .section origin (overlayEntries es inner)
  | s, _ => s

/-- Entries over others. -/
def overlayEntries : List (String × Setting) → List (String × Setting) → List (String × Setting)
  | [], under => under
  | (k, v) :: es, under => overlayEntries es (alter k (overlay v) under)

end

/-- A setting put over others at a path; what stands in the way of the path is replaced by a section
or a list. -/
def overlayAt (s : Setting) : List PathStep → Option Setting → Setting
  | [], under => s.overlay under
  | .name name :: steps, under =>
    let (origin, inner) := sectionParts under
    .section origin (alter name (overlayAt s steps) inner)
  | .index i :: steps, under =>
    let (origin, inner) := listParts under
    .list origin (alterAt i (fun v => overlayAt s steps (some v)) inner)

/-- A layer: settings by name, where a name may be a path. -/
abbrev Layer := List (String × Setting)

/-- The length that no list may exceed. -/
def greatestLength : Nat := 0x1000000

/-- Whether a step leads to a place that a list may have. -/
def isWithinReach : PathStep → Bool
  | .name _ => true
  | .index n => n.natAbs < greatestLength

/-- The settings of a row of layers, each put over the ones before it; nothing when a list would
have to be too long. -/
def layered? (layers : List Layer) : Option Setting :=
  let named := layers.flatten.map fun e => (PathStep.ofText e.1, e.2)
  if named.all fun e => e.1.all isWithinReach then
    some (named.foldl (fun all e => e.2.overlayAt e.1 (some all)) (.section .unnamed []))
  else none

end Setting

end ExchangeCatalog
