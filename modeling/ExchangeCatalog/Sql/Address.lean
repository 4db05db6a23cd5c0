import ExchangeCatalog.Text.Split

/-!
# The address of the database

The address of the database names a scheme first. It may hold a password, which must not get into a
log.

## Main definitions

* `namesScheme` — whether a text starts as an address has to
* `maskPassword` — an address with asterisks for its password
-/

namespace ExchangeCatalog

/-- Whether a text starts with a scheme: a letter, then letters, digits, and the signs `+`, `-` and
`.`, up to a colon. -/
def namesScheme (url : String) : Bool :=
  match Text.cutFirst? ':' url.toList with
  | some (c :: cs, _) =>
    c.isAlpha && cs.all fun d => d.isAlphanum || d == '+' || d == '-' || d == '.'
  | _ => false

/-- An address with asterisks for its password. The credentials stand between the scheme and the
last at sign, the user name before their first colon; an address without these parts is kept as it
is. -/
def maskPassword (url : String) : String :=
  match Text.cutAt? [':', '/', '/'] url.toList with
  | none => url
  | some (scheme, rest) =>
    match Text.cutLast? '@' rest with
    | none => url
    | some (credentials, host) =>
      match Text.cutFirst? ':' credentials with
      | none => url
      | some (user, _) =>
        String.ofList (scheme ++ "://".toList ++ user ++ ":****@".toList ++ host)

end ExchangeCatalog
