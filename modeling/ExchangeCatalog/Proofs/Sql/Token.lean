import ExchangeCatalog.Proofs.Text.Decimal

/-!
# The tokens of a statement's text

A database reads the text of a statement as tokens: keywords, names between double quotes, numbered
places, comparisons and single marks. A double quote inside a name is written twice, and a name ends
with the first quote that is not. The reading goes through the text once, from left to right, and
knows nothing of how the text was made.

## Main definitions

* `Sql.Token` — the tokens
* `Sql.Lexeme`, `Sql.Reading` — what has been read of a text
* `Sql.tokenize?` — the tokens of a text, if it has any
* `Sql.Closed`, `Sql.Spells` — a piece of text is read as tokens, wherever it stands

## Main results

* `Sql.Spells.append`, `Sql.Closed.append_spells`, `Sql.Spells.intercalate` — pieces put together
* `Sql.tokenize?_of_spells` — a text of such pieces
* `Sql.finish_name` — a name in its quotes is read as the name, whatever its characters are
-/

namespace ExchangeCatalog.Sql

/-- The words of the language. -/
inductive Keyword
  | select
  | count
  | «from»
  | «where»
  | and
  | order
  | by
  | limit
  | offset
  | insert
  | into
  | values
  | returning
  | update
  | set
  | delete
  deriving DecidableEq, Repr

/-- The keywords as they are written. -/
def keywords : List (List Char × Keyword) :=
  [("SELECT".toList, .select), ("COUNT".toList, .count), ("FROM".toList, .from),
    ("WHERE".toList, .where), ("AND".toList, .and), ("ORDER".toList, .order), ("BY".toList, .by),
    ("LIMIT".toList, .limit), ("OFFSET".toList, .offset), ("INSERT".toList, .insert),
    ("INTO".toList, .into), ("VALUES".toList, .values), ("RETURNING".toList, .returning),
    ("UPDATE".toList, .update), ("SET".toList, .set), ("DELETE".toList, .delete)]

/-- The comparisons of the language. -/
inductive Comparison
  | eq
  | lt
  | le
  | gt
  | ge
  deriving DecidableEq, Repr

/-- The comparisons as they are written. -/
def comparisons : List (List Char × Comparison) :=
  [(['='], .eq), (['<'], .lt), (['<', '='], .le), (['>'], .gt), (['>', '='], .ge)]

/-- The characters that are tokens of their own. -/
inductive Mark
  | opening
  | closing
  | comma
  | star
  deriving DecidableEq, Repr

/-- The marks as they are written. -/
def marks : List (Char × Mark) := [('(', .opening), (')', .closing), (',', .comma), ('*', .star)]

/-- A token of a statement's text. -/
inductive Token
  | keyword (k : Keyword)
  | name (s : String)
  | place (n : Nat)
  | number (n : Nat)
  | comparison (c : Comparison)
  | mark (m : Mark)
  deriving DecidableEq, Repr

/-- A token that has been begun. -/
inductive Lexeme
  /-- No token is open. -/
  | between
  /-- A name, whose closing quote is still to come. -/
  | name (cs : List Char)
  /-- A name, of which the last quote either closes it or is the first of two. -/
  | quote (cs : List Char)
  | word (cs : List Char)
  | place (cs : List Char)
  | number (cs : List Char)
  | comparison (cs : List Char)

/-- The characters of comparisons. -/
def isComparisonChar (c : Char) : Bool := c == '<' || c == '=' || c == '>'

namespace Lexeme

/-- What is read when a lexeme ends here, if it may; between tokens that is nothing. -/
def close? : Lexeme → Option (List Token)
  | between => some []
  | name _ => none
  | quote cs => some [.name (String.ofList cs)]
  | word cs => (keywords.lookup cs).map fun k => [.keyword k]
  | place cs => (Decimal.nat? cs).map fun n => [.place n]
  | number cs => (Decimal.nat? cs).map fun n => [.number n]
  | comparison cs => (comparisons.lookup cs).map fun c => [.comparison c]

/-- The lexeme that goes on with a character, if there is one. -/
def extend? : Lexeme → Char → Option Lexeme
  | between, _ => none
  | name cs, c => some (if c = '"' then quote cs else name (cs ++ [c]))
  | quote cs, c => if c = '"' then some (name (cs ++ [c])) else none
  | word cs, c => if c.isUpper then some (word (cs ++ [c])) else none
  | place cs, c => if Decimal.isDigit c then some (place (cs ++ [c])) else none
  | number cs, c => if Decimal.isDigit c then some (number (cs ++ [c])) else none
  | comparison cs, c => if isComparisonChar c then some (comparison (cs ++ [c])) else none

/-- What a character begins: a token of its own, or a lexeme. -/
def start? (c : Char) : Option (List Token × Lexeme) :=
  if c = ' ' then some ([], between)
  else if c = '"' then some ([], name [])
  else if c = '$' then some ([], place [])
  else if c.isUpper then some ([], word [c])
  else if Decimal.isDigit c then some ([], number [c])
  else if isComparisonChar c then some ([], comparison [c])
  else (marks.lookup c).map fun m => ([.mark m], between)

end Lexeme

/-- What has been read of a text: the tokens, the last one first, and the lexeme that is open. -/
structure Reading where
  tokens : List Token
  lexeme : Lexeme

/-- The reading after one more character. -/
def Reading.step (r : Reading) (c : Char) : Option Reading :=
  match r.lexeme.extend? c with
  | some l => some ⟨r.tokens, l⟩
  | none =>
    -- A character that does not go on with the open token ends it and begins another.
    match r.lexeme.close?, Lexeme.start? c with
    | some done, some (new, l) => some ⟨new ++ (done ++ r.tokens), l⟩
    | _, _ => none

/-- The tokens of all that has been read and of the rest of the text. -/
def Reading.finish (r : Reading) : List Char → Option (List Token)
  | [] => r.lexeme.close?.map fun done => (done ++ r.tokens).reverse
  | c :: cs => (r.step c).bind fun r => r.finish cs

/-- The tokens of a text. -/
def tokenize? (s : String) : Option (List Token) := Reading.finish ⟨[], .between⟩ s.toList

example : tokenize? "SELECT * FROM \"a\"\"b\" WHERE \"id\" <= $12" =
    some [.keyword .select, .mark .star, .keyword .from, .name "a\"b", .keyword .where, .name "id",
      .comparison .le, .place 12] := by decide

/-! ### Pieces of text -/

/-- A character that ends every token which is open. -/
def IsBoundary (c : Char) : Prop := c = ' ' ∨ c = '(' ∨ c = ')' ∨ c = ','

theorem isBoundary_space : IsBoundary ' ' := Or.inl rfl

theorem isBoundary_closing : IsBoundary ')' := Or.inr (Or.inr (Or.inl rfl))

theorem isBoundary_comma : IsBoundary ',' := Or.inr (Or.inr (Or.inr rfl))

/-- A text that is empty or begins with a character that ends a token. -/
def Separates (cs : List Char) : Prop := ∀ c ∈ cs.head?, IsBoundary c

/-- A piece of text is read as tokens, whatever follows. -/
def Closed (cs : List Char) (ts : List Token) : Prop :=
  ∀ done rest, Reading.finish ⟨done, .between⟩ (cs ++ rest) =
    Reading.finish ⟨ts.reverse ++ done, .between⟩ rest

/-- A piece of text is read as tokens when what follows ends the last one. -/
def Spells (cs : List Char) (ts : List Token) : Prop :=
  ∀ done rest, Separates rest →
    Reading.finish ⟨done, .between⟩ (cs ++ rest) =
      Reading.finish ⟨ts.reverse ++ done, .between⟩ rest

variable {cs ds : List Char} {ts us : List Token}

theorem Closed.spells (h : Closed cs ts) : Spells cs ts := fun done rest _ => h done rest

theorem separates_nil : Separates [] := nofun

theorem separates_cons {c : Char} (h : IsBoundary c) (cs : List Char) : Separates (c :: cs) := by
  rintro _ ⟨⟩
  exact h

theorem Separates.append (hcs : Separates cs) (hds : Separates ds) : Separates (cs ++ ds) := by
  cases cs with
  | nil => exact hds
  | cons c cs => exact hcs

theorem Spells.append (hcs : Spells cs ts) (hds : Spells ds us) (hsep : Separates ds) :
    Spells (cs ++ ds) (ts ++ us) := by
  intro done rest hrest
  rw [List.append_assoc, hcs done (ds ++ rest) (hsep.append hrest), hds _ rest hrest,
    List.reverse_append, List.append_assoc]

theorem Closed.append_spells (hcs : Closed cs ts) (hds : Spells ds us) :
    Spells (cs ++ ds) (ts ++ us) := by
  intro done rest hrest
  rw [List.append_assoc, hcs, hds _ rest hrest, List.reverse_append, List.append_assoc]

theorem Spells.append_closed (hcs : Spells cs ts) (hds : Closed ds us) (hsep : Separates ds)
    (hne : ds ≠ []) : Closed (cs ++ ds) (ts ++ us) := by
  intro done rest
  have hsep' : Separates (ds ++ rest) := by
    cases ds with
    | nil => exact absurd rfl hne
    | cons d ds => exact hsep
  rw [List.append_assoc, hcs done _ hsep', hds, List.reverse_append, List.append_assoc]

theorem spells_nil : Spells [] [] := fun _ _ _ => rfl

/-- Pieces put together with a closed piece between them, which begins by ending a token. -/
theorem Spells.intercalate {α : Type} {f : α → List Char} {g : α → List Token} (hsep : Closed cs ts)
    (hcs : Separates cs) (hne : cs ≠ []) {xs : List α} (h : ∀ x ∈ xs, Spells (f x) (g x)) :
    Spells (cs.intercalate (xs.map f)) (ts.intercalate (xs.map g)) := by
  induction xs with
  | nil => exact spells_nil
  | cons x xs ih =>
    obtain ⟨hx, hxs⟩ := List.forall_mem_cons.mp h
    -- The last piece has nothing after it; each other one is ended by the closed piece.
    cases xs with
    | nil =>
      rw [List.map_singleton, List.map_singleton, List.intercalate_singleton,
        List.intercalate_singleton]
      exact hx
    | cons y xs =>
      rw [List.map_cons, List.map_cons, List.map_cons, List.map_cons, List.intercalate_cons_cons,
        List.intercalate_cons_cons]
      exact (hx.append_closed hsep hcs hne).append_spells (ih hxs)

/-- The tokens that have been read already stay in front. -/
theorem step_tokens (done : List Token) (l : Lexeme) (c : Char) :
    Reading.step ⟨done, l⟩ c =
      (Reading.step ⟨[], l⟩ c).map fun r => ⟨r.tokens ++ done, r.lexeme⟩ := by
  rw [Reading.step, Reading.step]
  dsimp only
  cases l.extend? c with
  | some l' => rfl
  | none =>
    cases l.close? with
    | none => rfl
    | some ended =>
      cases Lexeme.start? c with
      | none => rfl
      | some begun => simp

theorem finish_tokens (done : List Token) (l : Lexeme) (cs : List Char) :
    Reading.finish ⟨done, l⟩ cs = (Reading.finish ⟨[], l⟩ cs).map fun ts => done.reverse ++ ts := by
  -- Each step leaves the tokens in front as they are, so the induction is over any of them.
  induction cs generalizing done l with
  | nil =>
    rw [Reading.finish, Reading.finish]
    dsimp only
    cases l.close? with
    | none => rfl
    | some ended => simp
  | cons c cs ih =>
    rw [Reading.finish, Reading.finish, step_tokens]
    cases Reading.step ⟨[], l⟩ c with
    | none => rfl
    | some r =>
      rw [Option.map_some, Option.bind_some, Option.bind_some, ih, ih r.tokens, Option.map_map]
      simp [Function.comp_def]

/-- The tokens of a whole text. -/
theorem tokenize?_of_spells {s : String} (h : Spells s.toList ts) : tokenize? s = some ts := by
  have hread := h [] [] separates_nil
  rw [List.append_nil, List.append_nil] at hread
  rw [tokenize?, hread]
  exact congrArg some (List.reverse_reverse ts)

/-! ### Single tokens -/

/-- A lexeme ends where it may and where the next character cannot go on with it. -/
theorem finish_of_ends {l : Lexeme} {new : List Token} (hclose : l.close? = some new)
    (done : List Token) {rest : List Char} (hends : ∀ c ∈ rest.head?, l.extend? c = none) :
    Reading.finish ⟨done, l⟩ rest = Reading.finish ⟨new ++ done, .between⟩ rest := by
  cases rest with
  | nil =>
    rw [Reading.finish, hclose]
    rfl
  | cons c rest =>
    have hc := hends c rfl
    have hopen : Lexeme.between.extend? c = none := rfl
    have hbetween : Lexeme.between.close? = some [] := rfl
    simp only [Reading.finish, Reading.step, hc, hclose, hopen, hbetween]
    cases Lexeme.start? c with
    | none => rfl
    | some p => rfl

/-- A character between tokens ends every lexeme that it cannot go on with. -/
theorem finish_of_separates {l : Lexeme} {new : List Token} (hclose : l.close? = some new)
    (hends : ∀ c, IsBoundary c → l.extend? c = none) (done : List Token) {rest : List Char}
    (hrest : Separates rest) :
    Reading.finish ⟨done, l⟩ rest = Reading.finish ⟨new ++ done, .between⟩ rest :=
  finish_of_ends hclose done fun c hc => hends c (hrest c hc)

/-- The characters of a name as they stand between its quotes. -/
def escape (cs : List Char) : List Char := cs.flatMap fun c => if c = '"' then ['"', '"'] else [c]

theorem finish_escape (done : List Token) (acc cs rest : List Char) :
    Reading.finish ⟨done, .name acc⟩ (escape cs ++ rest) =
      Reading.finish ⟨done, .name (acc ++ cs)⟩ rest := by
  induction cs generalizing acc with
  | nil => rw [List.append_nil]; rfl
  | cons c cs ih =>
    rw [escape, List.flatMap_cons, List.append_assoc, ← escape]
    by_cases hc : c = '"'
    · subst hc
      -- the first of the two quotes leaves it open whether the name ends, the second tells
      change Reading.finish ⟨done, .name (acc ++ ['"'])⟩ (escape cs ++ rest) = _
      rw [ih, List.append_assoc, List.singleton_append]
    · rw [if_neg hc, List.singleton_append]
      simp only [Reading.finish, Reading.step, Lexeme.extend?, if_neg hc, Option.bind_some]
      rw [ih, List.append_assoc, List.singleton_append]

/-- A name between its quotes is read as the name, whatever its characters are, and whatever follows
but a quote. -/
theorem finish_name (s : String) (done : List Token) {rest : List Char}
    (hrest : rest.head? ≠ some '"') :
    Reading.finish ⟨done, .between⟩ ('"' :: escape s.toList ++ ['"'] ++ rest) =
      Reading.finish ⟨.name s :: done, .between⟩ rest := by
  rw [List.append_assoc, List.cons_append, List.singleton_append]
  change Reading.finish ⟨done, .name []⟩ (escape s.toList ++ '"' :: rest) = _
  rw [finish_escape, List.nil_append]
  -- What follows is no quote, so the last quote closes the name.
  change Reading.finish ⟨done, .quote s.toList⟩ rest = _
  rw [finish_of_ends rfl done, String.ofList_toList]
  · rfl
  · intro c hc
    have hne : c ≠ '"' := by
      rintro rfl
      exact hrest hc
    exact if_neg hne

theorem spells_name (s : String) : Spells ('"' :: escape s.toList ++ ['"']) [.name s] := by
  intro done rest hrest
  refine finish_name s done fun hquote => ?_
  rcases hrest _ hquote with h | h | h | h
  all_goals cases h

/-- A run of digits goes on with the number that has been begun. -/
theorem finish_digits (lexeme : List Char → Lexeme) (done : List Token)
    (hgo : ∀ acc c, Decimal.isDigit c → (lexeme acc).extend? c = some (lexeme (acc ++ [c])))
    (acc : List Char) {cs : List Char} (h : ∀ c ∈ cs, Decimal.isDigit c) (rest : List Char) :
    Reading.finish ⟨done, lexeme acc⟩ (cs ++ rest) =
      Reading.finish ⟨done, lexeme (acc ++ cs)⟩ rest := by
  induction cs generalizing acc with
  | nil => rw [List.append_nil]; rfl
  | cons c cs ih =>
    obtain ⟨hc, hcs⟩ := List.forall_mem_cons.mp h
    rw [List.cons_append, Reading.finish, Reading.step]
    dsimp only
    rw [hgo acc c hc]
    dsimp only [Option.bind_some]
    rw [ih _ hcs, List.append_assoc, List.singleton_append]

/-- A numbered place is read as the place. -/
theorem spells_place (n : Nat) : Spells ('$' :: Decimal.digits n) [.place n] := by
  intro done rest hrest
  have hclose : (Lexeme.place (Decimal.digits n)).close? = some [.place n] := by
    rw [Lexeme.close?, Decimal.nat?_digits]
    rfl
  rw [List.cons_append]
  change Reading.finish ⟨done, .place []⟩ (Decimal.digits n ++ rest) = _
  rw [finish_digits .place done (fun acc c hc => if_pos hc) [] (Decimal.isDigit_of_mem_digits n),
    List.nil_append, finish_of_separates hclose ?_ done hrest]
  · rfl
  · rintro c (rfl | rfl | rfl | rfl)
    all_goals rfl

/-- A number is read as the number. -/
theorem spells_number_one : Spells ['1'] [.number 1] := by
  intro done rest hrest
  change Reading.finish ⟨done, .number ['1']⟩ rest = _
  rw [finish_of_separates rfl ?_ done hrest]
  · rfl
  · rintro c (rfl | rfl | rfl | rfl)
    all_goals rfl

/-- A comparison is read as the comparison, when its characters are those of one. -/
theorem spells_comparison {c : Comparison} (h : comparisons.lookup cs = some c)
    (hread : ∀ done rest, Reading.finish ⟨done, .between⟩ (cs ++ rest) =
      Reading.finish ⟨done, .comparison cs⟩ rest) : Spells cs [.comparison c] := by
  intro done rest hrest
  have hclose : (Lexeme.comparison cs).close? = some [.comparison c] := by
    rw [Lexeme.close?, h]
    rfl
  rw [hread, finish_of_separates hclose ?_ done hrest]
  · rfl
  · rintro c (rfl | rfl | rfl | rfl)
    all_goals rfl

end ExchangeCatalog.Sql
