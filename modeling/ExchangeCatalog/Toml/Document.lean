import ExchangeCatalog.Text.Utf8
import ExchangeCatalog.Toml.Scalar

/-!
# Settings files

A settings file is a row of lines, each an entry or the header of a table. Headers and dotted keys
build one tree; a table that is complete, because it has been headed or was written in braces, is
not built further by other means. The first fault of a file is as good as any other, so a file is
either read or not.

## Main definitions

* `Toml.value?` — a value at the front of a text
* `Toml.Node` — a tree under construction, with `Toml.Node.head?`, `Toml.Node.put?`
* `Toml.parse?` — the entries of a file
-/

namespace ExchangeCatalog.Toml

/-! ### Building tables -/

/-- How a table came to be: along the way of a header, by a header, or by a dotted key. -/
inductive TableOrigin
  | passed
  | headed
  | dotted
  deriving DecidableEq

/-- A tree under construction. -/
inductive Node
  /-- A value, which is complete. -/
  | value (v : Toml)
  | table (origin : TableOrigin) (entries : List (String × Node))
  /-- A row of tables under one header, the latest first. -/
  | tables (latest : List (String × Node)) (earlier : List (List (String × Node)))

/-- The entries of a table. -/
abbrev Entries := List (String × Node)

/-- The entry of a key. -/
def find? (key : String) (es : Entries) : Option Node := (es.find? fun e => e.1 == key).map Prod.snd

/-- The entries with one put in the place of its key, or at the end. -/
def set (key : String) (n : Node) : Entries → Entries
  | [] => [(key, n)]
  | e :: es => if e.1 = key then (key, n) :: es else e :: set key n es

/-- The entries after a change to the table that a header leads through under a key: a new table,
one that is there, or the latest of a row. -/
def within? (key : String) (change : Entries → Option Entries) (es : Entries) : Option Entries :=
  match find? key es with
  | none => (change []).map fun inner => set key (.table .passed inner) es
  | some (.table origin inner) => (change inner).map fun inner => set key (.table origin inner) es
  | some (.tables latest earlier) =>
    (change latest).map fun latest => set key (.tables latest earlier) es
  | some (.value _) => none

/-- The entries after a header for a table, or for one more of a row of tables. -/
def head? (row : Bool) : List String → Entries → Option Entries
  | [], _ => none
  | [key], es =>
    -- A table may be headed once, and also after it was passed on the way to another.
    match find? key es, row with
    | none, false => some (set key (.table .headed []) es)
    | some (.table .passed inner), false => some (set key (.table .headed inner) es)
    | none, true => some (set key (.tables [] []) es)
    | some (.tables latest earlier), true => some (set key (.tables [] (latest :: earlier)) es)
    | _, _ => none
  | key :: keys, es => within? key (head? row keys) es

/-- The entries after an entry with a dotted key. A key may be given once. On its way it may lead
through tables that have not been headed, which cannot be headed from then on, and through the
latest table of a row, which takes no entry of its own this way. -/
def put? (v : Toml) : List String → Entries → Option Entries
  | [], _ => none
  | [key], es => if (find? key es).isSome then none else some (es ++ [(key, .value v)])
  | key :: keys, es =>
    match find? key es with
    | none => (put? v keys []).map fun inner => set key (.table .dotted inner) es
    | some (.table .headed _) => none
    | some (.table _ inner) =>
      (put? v keys inner).map fun inner => set key (.table .dotted inner) es
    | some (.tables latest earlier) =>
      if keys.length = 1 then none
      else (put? v keys latest).map fun latest => set key (.tables latest earlier) es
    | some (.value _) => none

/-- The entries after a change below the last header. -/
def below? (change : Entries → Option Entries) : List String → Entries → Option Entries
  | [], es => change es
  | key :: keys, es => within? key (below? change keys) es

mutual

/-- A tree that is complete. -/
def Node.finish : Node → Toml
  | .value v => v
  | .table _ es => .table (finishEntries es)
  | .tables latest earlier =>
    .array ((finishRows earlier).reverse ++ [.table (finishEntries latest)])

/-- The entries of a complete table. -/
def finishEntries : Entries → List (String × Toml)
  | [] => []
  | (k, n) :: es => (k, n.finish) :: finishEntries es

/-- The tables of a row, in the order given. -/
def finishRows : List Entries → List Toml
  | [] => []
  | es :: rows => .table (finishEntries es) :: finishRows rows

end

/-! ### Keys and values -/

/-- Whether a character may stand in a key without quotes. -/
def isBareChar (c : Char) : Bool := c.isAlphanum || c == '_' || c == '-'

/-- Blanks left out. -/
def skipBlanks (cs : List Char) : List Char := cs.dropWhile fun c => c == ' ' || c == '\t'

/-- One part of a key, and what follows. -/
def keyPart? (cs : List Char) : Option (String × List Char) :=
  match cs with
  | '"' :: _ | '\'' :: _ => shortString? cs
  | _ =>
    let word := cs.takeWhile isBareChar
    if word = [] then none else some (String.ofList word, cs.dropWhile isBareChar)

/-- A dotted key of at most `n` parts, and what follows it and its blanks. -/
def keyUpTo? : Nat → List Char → Option (List String × List Char)
  | 0, _ => none
  | n + 1, cs => do
    let (part, rest) ← keyPart? (skipBlanks cs)
    match skipBlanks rest with
    | '.' :: more => (keyUpTo? n more).map fun (parts, rest) => (part :: parts, rest)
    | rest => some ([part], rest)

/-- How many parts a key may have, and how many brackets and braces a value may stand in. -/
def depthLimit : Nat := 80

/-- A dotted key, and what follows it and its blanks. -/
def key? (cs : List Char) : Option (List String × List Char) := keyUpTo? depthLimit cs

/-- A comment at the front of a text left out up to its line end; nothing when it holds a control
character. -/
def skipComment? (cs : List Char) : Option (List Char) :=
  match cs with
  | '#' :: rest =>
    let isEnd := fun (c : Char) => c == '\n' || c == '\r'
    if (rest.takeWhile fun c => !isEnd c).any isForbidden then none
    else some (rest.dropWhile fun c => !isEnd c)
  | cs => some cs

/-- Blanks, line ends and comments left out, at most `n` comments. -/
def skipFillerUpTo? : Nat → List Char → Option (List Char)
  | 0, cs => some cs
  | n + 1, cs =>
    match skipBlankLines cs with
    | '#' :: rest => (skipComment? ('#' :: rest)).bind (skipFillerUpTo? n)
    | rest => some rest

/-- Blanks, line ends and comments left out. -/
def skipFiller? (cs : List Char) : Option (List Char) := skipFillerUpTo? (cs.length + 1) cs

mutual

/-- A value within at most `depth` brackets and braces, read in at most `n` steps, and what
follows. -/
def valueUpTo? : Nat → Nat → List Char → Option (Toml × List Char)
  | 0, _, _ => none
  | n + 1, depth, cs =>
    match cs, depth with
    | '[' :: rest, depth + 1 => (itemsUpTo? n depth [] rest).map fun (vs, rest) => (.array vs, rest)
    | '\x7b' :: rest, depth + 1 =>
      (membersUpTo? n depth [] rest).map fun (es, rest) => (.table (finishEntries es), rest)
    | '"' :: _, _ | '\'' :: _, _ => (string? cs).map fun (s, rest) => (.string s, rest)
    | _, _ => plain? cs

/-- The items of an array up to its closing bracket, after items given in reverse. A comma may stand
behind the last one. -/
def itemsUpTo? : Nat → Nat → List Toml → List Char → Option (List Toml × List Char)
  | 0, _, _, _ => none
  | n + 1, depth, acc, cs => do
    match ← skipFiller? cs with
    | ']' :: rest => some (acc.reverse, rest)
    | cs => do
      let (v, rest) ← valueUpTo? n depth cs
      match ← skipFiller? rest with
      | ',' :: rest => itemsUpTo? n depth (v :: acc) rest
      | ']' :: rest => some ((v :: acc).reverse, rest)
      | _ => none

/-- The members of a table in braces up to the closing one, after entries already put together. -/
def membersUpTo? : Nat → Nat → Entries → List Char → Option (Entries × List Char)
  | 0, _, _, _ => none
  | n + 1, depth, es, cs => do
    match ← skipFiller? cs with
    | '\x7d' :: rest => some (es, rest)
    | cs => do
      let (keys, rest) ← key? cs
      let rest ← afterChar? '=' rest
      let (v, rest) ← valueUpTo? n depth (skipBlanks rest)
      let es ← put? v keys es
      match ← skipFiller? rest with
      | ',' :: rest => membersUpTo? n depth es rest
      | '\x7d' :: rest => some (es, rest)
      | _ => none

end

/-- A value at the front of a text, and what follows. Each step of the reading takes a character, so
their number is bounded by the length of the text. -/
def value? (cs : List Char) : Option (Toml × List Char) :=
  valueUpTo? (2 * cs.length + 2) depthLimit cs

/-! ### Files -/

/-- What follows the end of a line, which blanks and a comment may precede. -/
def endOfLine? (cs : List Char) : Option (List Char) := do
  match ← skipComment? (skipBlanks cs) with
  | [] => some []
  | rest => takeNewline? rest

/-- The header at the front of a text, behind its first bracket: whether it is one of a row of
tables, its keys, and what follows. -/
def header? (cs : List Char) : Option (Bool × List String × List Char) :=
  match cs with
  | '[' :: cs => do
    let (keys, rest) ← key? cs
    match rest with
    | ']' :: ']' :: rest => some (true, keys, rest)
    | _ => none
  | cs => do
    let (keys, rest) ← key? cs
    (afterChar? ']' rest).map fun rest => (false, keys, rest)

/-- The entries of at most `n` lines, under the last header and after entries already put
together. -/
def linesUpTo? : Nat → List String → Entries → List Char → Option Entries
  | 0, _, _, _ => none
  | n + 1, last, es, cs =>
    match skipBlanks cs with
    | [] => some es
    | '[' :: rest => do
      let (row, keys, rest) ← header? rest
      let es ← head? row keys es
      linesUpTo? n keys es (← endOfLine? rest)
    | '#' :: rest => do linesUpTo? n last es (← endOfLine? ('#' :: rest))
    | c :: rest =>
      match takeNewline? (c :: rest) with
      | some rest => linesUpTo? n last es rest
      | none => do
        let (keys, rest) ← key? (c :: rest)
        let rest ← afterChar? '=' rest
        let (v, rest) ← value? (skipBlanks rest)
        let es ← below? (put? v keys) last es
        linesUpTo? n last es (← endOfLine? rest)

/-- The entries of a settings file. A byte order mark in front does not count. -/
def parse? (s : String) : Option (List (String × Toml)) :=
  let cs := Utf8.withoutMark s.toList
  (linesUpTo? (cs.length + 1) [] [] cs).map finishEntries

end ExchangeCatalog.Toml
