import ExchangeCatalog.Toml.Document
import Mathlib.Data.List.Basic
import Mathlib.Tactic.IntervalCases

/-!
# Texts in settings files

Every text can be written as a string of a settings file: quotes and backslashes behind a backslash,
control characters by their numbers, and all else as it is. What is written so is read as the text,
and an entry of which it is the value makes a file.

## Main definitions

* `Toml.escaped`, `Toml.quoted` — a character and a text between double quotes

## Main results

* `Toml.string?_quoted`, `Toml.value?_quoted` — a quoted text is read as the text
* `Toml.parse?_entry` — a file that is one entry
-/

namespace ExchangeCatalog.Toml

variable {c : Char} {acc rest : List Char}

/-- A character as it may be written between double quotes: a quote and a backslash behind a
backslash, a control character by its number, and any other character as it is. -/
def escaped (c : Char) : List Char :=
  if c = '"' ∨ c = '\\' then ['\\', c]
  else if isForbidden c then
    ['\\', 'u', '0', '0', Nat.digitChar (c.toNat / 16), Nat.digitChar (c.toNat % 16)]
  else [c]

/-- A text between double quotes. -/
def quoted (s : String) : String := String.ofList ('"' :: s.toList.flatMap escaped ++ ['"'])

/-- A character that is not written as it is, is read from its number. -/
theorem basicString?_number {n : Nat} (h : n < 0x20 ∨ n = 0x7F) (acc rest : List Char) :
    basicString? acc
      ('\\' :: 'u' :: '0' :: '0' :: Nat.digitChar (n / 16) :: Nat.digitChar (n % 16) :: rest) =
      basicString? (Char.ofNat n :: acc) rest := by
  rw [basicString?]
  obtain h | rfl := h
  · interval_cases n <;> rfl
  · rfl

/-- What is written of a character is read as this character, whatever follows. -/
theorem basicString?_escaped (c : Char) (acc rest : List Char) :
    basicString? acc (escaped c ++ rest) = basicString? (c :: acc) rest := by
  rw [escaped]
  split_ifs with hmark hcontrol
  · obtain rfl | rfl := hmark
    · rw [List.cons_append, basicString?]
      rfl
    · rw [List.cons_append, basicString?]
      rfl
  · have hnumber : c.toNat < 0x20 ∨ c.toNat = 0x7F := by
      simp only [isForbidden, Bool.or_eq_true, Bool.and_eq_true, decide_eq_true_eq,
        beq_iff_eq] at hcontrol
      omega
    have hread := basicString?_number hnumber acc rest
    rwa [Char.ofNat_toNat] at hread
  · obtain ⟨hquote, hslash⟩ := not_or.1 hmark
    rw [List.singleton_append, basicString?, if_neg hcontrol]
    · exact hquote
    · exact hslash

/-- A text written character by character is read up to the quote behind it. -/
theorem basicString?_flatMap_escaped (cs acc rest : List Char) :
    basicString? acc (cs.flatMap escaped ++ '"' :: rest) =
      some (String.ofList (acc.reverse ++ cs), rest) := by
  induction cs generalizing acc with
  | nil =>
    rw [List.flatMap_nil, List.nil_append, List.append_nil, basicString?]
  | cons c cs ih =>
    rw [List.flatMap_cons, List.append_assoc, basicString?_escaped, ih, List.reverse_cons,
      List.append_assoc, List.singleton_append]

theorem escaped_ne_nil (c : Char) : escaped c ≠ [] := by
  rw [escaped]
  split_ifs <;> exact List.cons_ne_nil _ _

/-- What is written of a character does not begin with a quote. -/
theorem head?_escaped_ne (c : Char) : (escaped c).head? ≠ some '"' := by
  rw [escaped]
  split_ifs with hmark
  · simp
  · simp
  · simpa using (not_or.1 hmark).1

/-- A string that does not begin with three quotes is one on a single line. -/
theorem string?_cons_quote (h : ∀ more, rest ≠ '"' :: '"' :: more) :
    string? ('"' :: rest) = basicString? [] rest := by
  rw [string?.eq_def]
  split
  · rename_i more heq
    exact absurd (List.cons.inj heq).2 (h more)
  · rename_i heq
    cases heq
  · rfl

/-- A quoted text is read as the text, if what follows does not begin with one more quote. -/
theorem string?_quoted (s : String) (hrest : rest.head? ≠ some '"') :
    string? ((quoted s).toList ++ rest) = some (s, rest) := by
  have hread := basicString?_flatMap_escaped s.toList [] rest
  rw [List.reverse_nil, List.nil_append, String.ofList_toList] at hread
  rw [quoted, String.toList_ofList, List.cons_append, List.cons_append, List.append_assoc,
    List.singleton_append, string?_cons_quote, hread]
  intro more heq
  cases hs : s.toList with
  | nil =>
    rw [hs, List.flatMap_nil, List.nil_append] at heq
    exact hrest (congrArg List.head? (List.cons.inj heq).2)
  | cons c cs =>
    rw [hs, List.flatMap_cons, List.append_assoc] at heq
    have hhead := congrArg List.head? heq
    rw [List.head?_append_of_ne_nil _ (escaped_ne_nil c)] at hhead
    exact head?_escaped_ne c hhead

/-- A quoted text is a value. -/
theorem value?_quoted (s : String) (hrest : rest.head? ≠ some '"') :
    value? ((quoted s).toList ++ rest) = some (.string s, rest) := by
  have hread := string?_quoted s hrest
  rw [quoted, String.toList_ofList, List.cons_append, List.cons_append] at hread ⊢
  rw [value?, valueUpTo?, hread]
  rfl

/-- A character of a key is no character that stands in none. -/
theorem ne_of_isBareChar {d : Char} (hc : isBareChar c) (hd : isBareChar d = false) : c ≠ d := by
  rintro rfl
  exact Bool.false_ne_true (hd.symm.trans hc)

/-- A file of one line that is an entry: what the entry puts into nothing. -/
theorem parse?_entry {cs rest : List Char} {keys : List String} {v : Toml} {es : Entries}
    (hc : isBareChar c) (hkeys : key? (c :: cs) = some (keys, '=' :: rest))
    (hvalue : value? (skipBlanks rest) = some (v, [])) (hput : put? v keys [] = some es) :
    parse? (String.ofList (c :: cs)) = some (finishEntries es) := by
  have hmark : Utf8.withoutMark (c :: cs) = c :: cs := by
    have hne : c ≠ '\uFEFF' := ne_of_isBareChar hc rfl
    rw [Utf8.withoutMark, if_neg]
    exact fun heq => hne (Char.toNat_inj.1 heq)
  have hskip : skipBlanks (c :: cs) = c :: cs := by
    have hspace : c ≠ ' ' := ne_of_isBareChar hc rfl
    have htab : c ≠ '\t' := ne_of_isBareChar hc rfl
    rw [skipBlanks, List.dropWhile_cons_of_neg]
    simp [hspace, htab]
  have hnewline : takeNewline? (c :: cs) = none := by
    rw [takeNewline?.eq_def]
    split
    · rename_i heq
      exact absurd (List.cons.inj heq).1 (ne_of_isBareChar hc rfl)
    · rename_i heq
      exact absurd (List.cons.inj heq).1 (ne_of_isBareChar hc rfl)
    · rfl
  have hlines : ∀ n, linesUpTo? (n + 2) [] [] (c :: cs) = some es := by
    -- The line is an entry, since its first character begins nothing else, and nothing follows it.
    intro n
    rw [linesUpTo?, hskip]
    split
    · rename_i heq
      cases heq
    · rename_i heq
      exact absurd (List.cons.inj heq).1 (ne_of_isBareChar hc rfl)
    · rename_i heq
      exact absurd (List.cons.inj heq).1 (ne_of_isBareChar hc rfl)
    · rename_i c' cs' _ _ heq
      obtain ⟨rfl, rfl⟩ := List.cons.inj heq
      simp only [hnewline, hkeys, Option.bind_eq_bind, Option.bind_some, afterChar?, if_pos, hvalue,
        below?, hput]
      rfl
  rw [parse?, String.toList_ofList, hmark, List.length_cons, hlines]
  rfl

end ExchangeCatalog.Toml
