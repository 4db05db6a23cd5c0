/-!
# Cutting a text at a character

## Main definitions

* `Text.cutFirst?`, `Text.cutLast?` — what stands before and after the first or last occurrence of a
  character
* `Text.cutAt?` — what stands before and after the first occurrence of a text
* `Text.pieces` — the pieces between all occurrences
-/

namespace ExchangeCatalog.Text

/-- What stands before and after the first occurrence of a character. -/
def cutFirst? (c : Char) : List Char → Option (List Char × List Char)
  | [] => none
  | d :: cs => if d = c then some ([], cs) else (cutFirst? c cs).map fun (a, b) => (d :: a, b)

/-- What stands before and after the last occurrence of a character. -/
def cutLast? (c : Char) : List Char → Option (List Char × List Char)
  | [] => none
  | d :: cs =>
    match cutLast? c cs with
    | some (a, b) => some (d :: a, b)
    | none => if d = c then some ([], cs) else none

/-- What stands before and after the first occurrence of a text. -/
def cutAt? (sep : List Char) : List Char → Option (List Char × List Char)
  | [] => if sep = [] then some ([], []) else none
  | d :: cs =>
    if sep.isPrefixOf (d :: cs) then some ([], (d :: cs).drop sep.length)
    else (cutAt? sep cs).map fun (a, b) => (d :: a, b)

/-- The pieces of a text between the occurrences of a character; there is always one more piece than
there are occurrences. -/
def pieces (c : Char) : List Char → List (List Char)
  | [] => [[]]
  | d :: cs =>
    if d = c then [] :: pieces c cs
    else match pieces c cs with
      -- This does not happen, as there is always a piece.
      | [] => [[d]]
      | p :: ps => (d :: p) :: ps

theorem pieces_ne_nil (c : Char) (cs : List Char) : pieces c cs ≠ [] := by
  cases cs with
  | nil => simp [pieces]
  | cons d cs => simp only [pieces]; split <;> (try split) <;> simp

/-- Cutting at the first occurrence loses the character alone. -/
theorem eq_of_cutFirst? {c : Char} {cs a b : List Char} (h : cutFirst? c cs = some (a, b)) :
    cs = a ++ c :: b := by
  induction cs generalizing a b with
  | nil => simp [cutFirst?] at h
  | cons d cs ih =>
    simp only [cutFirst?] at h
    split at h
    · simp_all
    · obtain ⟨⟨a', b'⟩, hcut, heq⟩ := Option.map_eq_some_iff.1 h
      simp only [Prod.mk.injEq] at heq
      obtain ⟨rfl, rfl⟩ := heq
      simp [ih hcut]

/-- Cutting at the last occurrence loses the character alone. -/
theorem eq_of_cutLast? {c : Char} {cs a b : List Char} (h : cutLast? c cs = some (a, b)) :
    cs = a ++ c :: b := by
  induction cs generalizing a b with
  | nil => simp [cutLast?] at h
  | cons d cs ih =>
    simp only [cutLast?] at h
    split at h
    · rename_i a' b' hcut
      simp only [Option.some.injEq, Prod.mk.injEq] at h
      obtain ⟨rfl, rfl⟩ := h
      simp [ih hcut]
    · split at h <;> simp_all

end ExchangeCatalog.Text
