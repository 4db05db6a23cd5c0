import ExchangeCatalog.Proofs.Text.Split
import ExchangeCatalog.Sql.Address

/-!
# Masked addresses

The address of the database goes into a log, its password must not. What stands in the log is the
same for all passwords, whatever characters they are made of, for the password ends at the last at
sign of the address and begins at the first colon that the user name can end at. Every text is of
one of four forms, and only the form with a password is changed.

## Main definitions

* `AddressForm` — the forms of a text that is taken for an address
* `HidesPasswords` — what is expected of a function that masks addresses

## Main results

* `AddressForm.of_text` — every text is of one of the forms
* `maskPassword_password` — an address with a password has asterisks in the place of it
* `maskPassword_hides` — masking hides passwords, and changes nothing else
-/

namespace ExchangeCatalog

variable {scheme credentials user password host rest url : String}

/-! ### Cutting an address -/

theorem cutAt?_scheme (h : ¬ "://".toList <:+: scheme.toList) (rest : String) :
    Text.cutAt? [':', '/', '/'] (scheme ++ "://" ++ rest).toList =
      some (scheme.toList, rest.toList) := by
  rw [String.toList_append, String.toList_append, List.append_assoc]
  exact Text.cutAt?_append (by decide) h rest.toList

theorem cutLast?_host (credentials : String) (h : '@' ∉ host.toList) :
    Text.cutLast? '@' (credentials ++ "@" ++ host).toList =
      some (credentials.toList, host.toList) := by
  rw [String.toList_append, String.toList_append, List.append_assoc]
  exact Text.cutLast?_append credentials.toList h

theorem cutFirst?_user (h : ':' ∉ user.toList) (password : String) :
    Text.cutFirst? ':' (user ++ ":" ++ password).toList =
      some (user.toList, password.toList) := by
  rw [String.toList_append, String.toList_append, List.append_assoc]
  exact Text.cutFirst?_append h password.toList

/-! ### The forms of an address -/

theorem maskPassword_noScheme (h : ¬ "://".toList <:+: url.toList) : maskPassword url = url := by
  have hcut : Text.cutAt? [':', '/', '/'] url.toList = none := Text.cutAt?_eq_none_iff.mpr h
  rw [maskPassword, hcut]

theorem maskPassword_noCredentials (hscheme : ¬ "://".toList <:+: scheme.toList)
    (hrest : '@' ∉ rest.toList) :
    maskPassword (scheme ++ "://" ++ rest) = scheme ++ "://" ++ rest := by
  rw [maskPassword, cutAt?_scheme hscheme]
  dsimp only
  rw [Text.cutLast?_eq_none_iff.mpr hrest]

theorem maskPassword_noPassword (hscheme : ¬ "://".toList <:+: scheme.toList)
    (hcredentials : ':' ∉ credentials.toList) (hhost : '@' ∉ host.toList) :
    maskPassword (scheme ++ "://" ++ (credentials ++ "@" ++ host)) =
      scheme ++ "://" ++ (credentials ++ "@" ++ host) := by
  rw [maskPassword, cutAt?_scheme hscheme]
  dsimp only
  rw [cutLast?_host credentials hhost]
  dsimp only
  rw [Text.cutFirst?_eq_none_iff.mpr hcredentials]

/-- An address with a password has asterisks in the place of it. -/
theorem maskPassword_password (hscheme : ¬ "://".toList <:+: scheme.toList)
    (huser : ':' ∉ user.toList) (hhost : '@' ∉ host.toList) (password : String) :
    maskPassword (scheme ++ "://" ++ (user ++ ":" ++ password ++ "@" ++ host)) =
      scheme ++ "://" ++ (user ++ ":" ++ "****" ++ "@" ++ host) := by
  rw [maskPassword, cutAt?_scheme hscheme]
  dsimp only
  rw [cutLast?_host (user ++ ":" ++ password) hhost]
  dsimp only
  rw [cutFirst?_user huser]
  apply String.toList_injective
  simp

/-- The forms of a text that is taken for an address. -/
inductive AddressForm : String → Prop
  /-- No scheme ends in it. -/
  | noScheme (url : String) (h : ¬ "://".toList <:+: url.toList) : AddressForm url
  /-- It is a scheme and an address without credentials. -/
  | noCredentials (scheme rest : String) (hscheme : ¬ "://".toList <:+: scheme.toList)
      (hrest : '@' ∉ rest.toList) : AddressForm (scheme ++ "://" ++ rest)
  /-- The credentials are a name alone. -/
  | noPassword (scheme credentials host : String) (hscheme : ¬ "://".toList <:+: scheme.toList)
      (hcredentials : ':' ∉ credentials.toList) (hhost : '@' ∉ host.toList) :
      AddressForm (scheme ++ "://" ++ (credentials ++ "@" ++ host))
  /-- The credentials are a name and a password. -/
  | password (scheme user password host : String) (hscheme : ¬ "://".toList <:+: scheme.toList)
      (huser : ':' ∉ user.toList) (hhost : '@' ∉ host.toList) :
      AddressForm (scheme ++ "://" ++ (user ++ ":" ++ password ++ "@" ++ host))

/-- Every text is of one of the forms. -/
theorem AddressForm.of_text (url : String) : AddressForm url := by
  cases hscheme : Text.cutAt? [':', '/', '/'] url.toList with
  | none => exact .noScheme url (Text.cutAt?_eq_none_iff.mp hscheme)
  | some cut =>
    obtain ⟨hurl, hscheme⟩ := (Text.cutAt?_eq_some_iff (by decide)).mp hscheme
    cases hrest : Text.cutLast? '@' cut.2 with
    | none =>
      have heq : url = String.ofList cut.1 ++ "://" ++ String.ofList cut.2 := by
        apply String.toList_injective
        simp [hurl]
      rw [heq]
      refine .noCredentials _ _ (by simpa using hscheme) ?_
      simpa using Text.cutLast?_eq_none_iff.mp hrest
    | some parts =>
      obtain ⟨hrest, hhost⟩ := Text.cutLast?_eq_some_iff.mp hrest
      cases hcredentials : Text.cutFirst? ':' parts.1 with
      | none =>
        have heq : url = String.ofList cut.1 ++ "://" ++
            (String.ofList parts.1 ++ "@" ++ String.ofList parts.2) := by
          apply String.toList_injective
          simp [hurl, hrest]
        rw [heq]
        refine .noPassword _ _ _ (by simpa using hscheme) ?_ (by simpa using hhost)
        simpa using Text.cutFirst?_eq_none_iff.mp hcredentials
      | some names =>
        obtain ⟨hcredentials, huser⟩ := Text.cutFirst?_eq_some_iff.mp hcredentials
        have heq : url = String.ofList cut.1 ++ "://" ++ (String.ofList names.1 ++ ":" ++
            String.ofList names.2 ++ "@" ++ String.ofList parts.2) := by
          apply String.toList_injective
          simp [hurl, hrest, hcredentials]
        rw [heq]
        exact .password _ _ _ _ (by simpa using hscheme) (by simpa using huser)
          (by simpa using hhost)

/-! ### What masking does -/

/-- What is expected of a function that masks addresses. -/
structure HidesPasswords (mask : String → String) : Prop where
  /-- Asterisks stand in the place of the password, whatever characters it is made of. -/
  masked : ∀ scheme user host : String, ¬ "://".toList <:+: scheme.toList → ':' ∉ user.toList →
    '@' ∉ host.toList → ∀ password,
      mask (scheme ++ "://" ++ (user ++ ":" ++ password ++ "@" ++ host)) =
        scheme ++ "://" ++ (user ++ ":" ++ "****" ++ "@" ++ host)
  /-- Addresses that differ in the password alone are masked alike. -/
  alike : ∀ scheme user host : String, ¬ "://".toList <:+: scheme.toList → ':' ∉ user.toList →
    '@' ∉ host.toList → ∀ password password',
      mask (scheme ++ "://" ++ (user ++ ":" ++ password ++ "@" ++ host)) =
        mask (scheme ++ "://" ++ (user ++ ":" ++ password' ++ "@" ++ host))
  /-- A text without a scheme is kept as it is. -/
  noScheme : ∀ url : String, ¬ "://".toList <:+: url.toList → mask url = url
  /-- So is one without an at sign behind the scheme. -/
  noCredentials : ∀ scheme rest : String, ¬ "://".toList <:+: scheme.toList →
    '@' ∉ rest.toList → mask (scheme ++ "://" ++ rest) = scheme ++ "://" ++ rest
  /-- So is one without a colon between the scheme and the last at sign. -/
  noPassword : ∀ scheme credentials host : String, ¬ "://".toList <:+: scheme.toList →
    ':' ∉ credentials.toList → '@' ∉ host.toList →
      mask (scheme ++ "://" ++ (credentials ++ "@" ++ host)) =
        scheme ++ "://" ++ (credentials ++ "@" ++ host)
  /-- What is masked once is masked for good. -/
  idempotent : ∀ url, mask (mask url) = mask url

/-- Masking hides the password of an address, and changes nothing else. -/
theorem maskPassword_hides : HidesPasswords maskPassword where
  masked _ _ _ := maskPassword_password
  alike _ _ _ hscheme huser hhost password password' :=
    (maskPassword_password hscheme huser hhost password).trans
      (maskPassword_password hscheme huser hhost password').symm
  noScheme _ := maskPassword_noScheme
  noCredentials _ _ := maskPassword_noCredentials
  noPassword _ _ _ := maskPassword_noPassword
  idempotent url := by
    cases AddressForm.of_text url with
    | noScheme _ h => rw [maskPassword_noScheme h, maskPassword_noScheme h]
    | noCredentials scheme rest hscheme hrest =>
      rw [maskPassword_noCredentials hscheme hrest, maskPassword_noCredentials hscheme hrest]
    | noPassword scheme credentials host hscheme hcredentials hhost =>
      rw [maskPassword_noPassword hscheme hcredentials hhost,
        maskPassword_noPassword hscheme hcredentials hhost]
    | password scheme user password host hscheme huser hhost =>
      -- The masked address has a password too, which is made of asterisks.
      rw [maskPassword_password hscheme huser hhost, maskPassword_password hscheme huser hhost]

/-- The password of this address holds all the characters that an address is cut at. -/
example : maskPassword "postgres://broker:a@b:c://d?e#f@db:5432/broker" =
    "postgres://broker:****@db:5432/broker" := by
  decide +kernel

end ExchangeCatalog
