import ExchangeCatalog.Json.Reader

/-!
# The outermost layer of a JSON text

A request body is a flat record, so only the outermost layer of its text is looked at. The outline
of a text keeps that layer in the order in which it stands and says where the text stops making
sense. A reader that walks the outline therefore meets the faults of the text and the faults of its
content in one order, and can report the first.

## Main definitions

* `Json.Head` — how a value begins
* `Json.Item` — a value inside the outermost layer, and whether its text is complete
* `Json.Outline` — an array or object of items, or a single scalar, with what follows it
* `Json.outline`, `Json.toOutline` — the outline of a text and of a value
-/

namespace ExchangeCatalog.Json

/-- How a value begins. -/
inductive Head
  | scalar (s : Scalar)
  | array
  | object
  /-- No usable value stands here. -/
  | broken
  deriving DecidableEq, Repr

/-- A value inside the outermost layer. -/
structure Item where
  head : Head
  /-- The text of the value is well formed to its end. -/
  complete : Bool
  deriving DecidableEq, Repr

/-- The outermost layer of a text. An array or object that is not closed stops making sense after
the last of its parts. -/
inductive Layer
  | single (head : Head)
  | array (items : List Item) (closed : Bool)
  | object (members : List (String × Item)) (closed : Bool)
  deriving DecidableEq, Repr

/-- The outermost layer of a text, and whether nothing follows it. -/
structure Outline where
  layer : Layer
  finished : Bool
  deriving DecidableEq, Repr

/-- How the value at the front of a row of tokens begins. -/
def headOf : List Token → Head
  | .scalar s :: _ => .scalar s
  | .openArray :: _ => .array
  | .openObject :: _ => .object
  | _ => .broken

/-- The items of an array from the first one on, whether the array is closed, and what follows
it. -/
def outlineItems (acc : List Item) (ts : List Token) : List Item × Bool × List Token :=
  match h : takeValue? ts with
  | none => ((⟨headOf ts, false⟩ :: acc).reverse, false, [])
  | some (_, rest) =>
    let acc := ⟨headOf ts, true⟩ :: acc
    match rest with
    | .comma :: more =>
      have : more.length < ts.length := by
        have := length_of_takeValue? h
        simp only [List.length_cons] at this
        omega
      outlineItems acc more
    | .closeArray :: after => (acc.reverse, true, after)
    | _ => (acc.reverse, false, [])
termination_by ts.length

/-- The members of an object from the first one on, whether the object is closed, and what follows
it. -/
def outlineMembers (acc : List (String × Item)) (ts : List Token) :
    List (String × Item) × Bool × List Token :=
  match ts with
  | .scalar (.string key) :: .colon :: value =>
    match h : takeValue? value with
    | none => (((key, ⟨headOf value, false⟩) :: acc).reverse, false, [])
    | some (_, rest) =>
      let acc := (key, ⟨headOf value, true⟩) :: acc
      match rest with
      | .comma :: more =>
        have : more.length < value.length + 2 := by
          have := length_of_takeValue? h
          simp only [List.length_cons] at this
          omega
        outlineMembers acc more
      | .closeObject :: after => (acc.reverse, true, after)
      | _ => (acc.reverse, false, [])
  -- Without a colon the key has no value, and a reader that wants one finds none.
  | .scalar (.string key) :: _ => (((key, ⟨.broken, false⟩) :: acc).reverse, false, [])
  | _ => (acc.reverse, false, [])
termination_by ts.length

/-- The outermost layer of a row of tokens, and the tokens after it. -/
def layerOf : List Token → Layer × List Token
  | .openArray :: .closeArray :: rest => (.array [] true, rest)
  | .openArray :: ts =>
    let (items, closed, rest) := outlineItems [] ts
    (.array items closed, rest)
  | .openObject :: .closeObject :: rest => (.object [] true, rest)
  | .openObject :: ts =>
    let (members, closed, rest) := outlineMembers [] ts
    (.object members closed, rest)
  | ts => (.single (headOf ts), ts.drop 1)

/-- The outline of a text. -/
def outline (bs : List UInt8) : Outline :=
  let (ts, whole) := tokens bs
  let (layer, rest) := layerOf ts
  ⟨layer, rest.isEmpty && whole⟩

/-- How a complete value begins. -/
def head : Json → Head
  | .scalar s => .scalar s
  | .array _ => .array
  | .object _ => .object

/-- The outline of a value that has been read already. -/
def toOutline : Json → Outline
  | .scalar s => ⟨.single (.scalar s), true⟩
  | .array items => ⟨.array (items.map fun v => ⟨v.head, true⟩) true, true⟩
  | .object members => ⟨.object (members.map fun (k, v) => (k, ⟨v.head, true⟩)) true, true⟩

end ExchangeCatalog.Json
