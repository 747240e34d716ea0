/-
CurrencyPad.Error — what can go wrong, and the words for it.

Fetching rates, reading input, configuration and storage can fail.
An expression without a value and a conversion without usable rates are
no errors. Each constructor is a cause; `message` is its wording.
-/

namespace CurrencyPad

/-! ## 1. Fetching -/

/-- Whether a failed fetch is worth repeating unchanged. -/
inductive RetryClass
  | never
  | withBackoff
deriving DecidableEq

/-- Why a rate table could not be fetched. -/
inductive FetchError
  /-- No address could be built. -/
  | invalidUrl (reason : String)
  /-- The server refused, with this status. -/
  | badRequest (status : Nat)
  /-- The answer reports a failure or describes another base currency. -/
  | invalidResponse (reason : String)
  /-- The answer is not a rate table. -/
  | undecodable (reason : String)
deriving DecidableEq

namespace FetchError

def message : FetchError → String
  | invalidUrl reason => "Invalid URL: " ++ reason
  | badRequest status => "Bad request: HTTP " ++ toString status
  | invalidResponse reason => "Invalid response: " ++ reason
  | undecodable reason => "Decoding error: " ++ reason

/-- Rate limits, server failures and reported failures may pass; a bad address, a
rejected request and an unreadable answer will not. -/
def retryClass : FetchError → RetryClass
  | badRequest status => if status = 429 ∨ 500 ≤ status then .withBackoff else .never
  | invalidResponse _ => .withBackoff
  | invalidUrl _ | undecodable _ => .never

end FetchError

/-! ## 2. Input -/

/-- Input that is not what it should be. -/
structure InputError where
  reason : String
deriving DecidableEq

namespace InputError

def unknownKey (label : String) : InputError := ⟨"unknown key '" ++ label ++ "'"⟩

def message (e : InputError) : String := "Invalid input: " ++ e.reason

end InputError

/-! ## 3. Everything -/

/-- Why an operation failed. -/
inductive Error
  /-- The text is no currency code. -/
  | invalidCurrencyCode (code : String)
  /-- No currency is stored under the code. -/
  | currencyNotFound (code : String)
  /-- A currency is already stored under the code. -/
  | duplicateCurrency (code : String)
  /-- A rate below zero was to be stored. -/
  | invalidRate (code rate : String)
  /-- The rates could not be fetched. -/
  | fetch (cause : FetchError)
  /-- A rate could not be written. -/
  | save (reason : String)
  /-- The stored currencies could not be reached. -/
  | cache (reason : String)
  | input (cause : InputError)
  /-- The text is not JSON, or not JSON of the expected form. -/
  | malformedJson
  /-- A setting is out of range. -/
  | invalidSetting (reason : String)
  /-- The storage itself failed. -/
  | repository (reason : String)
deriving DecidableEq

namespace Error

def message : Error → String
  | invalidCurrencyCode code => "Fx error: Invalid currency code: " ++ code
  | currencyNotFound code => "Fx error: Currency not found: " ++ code
  | duplicateCurrency code => "Fx error: Duplicate currency: " ++ code
  | invalidRate code rate => "Fx error: Invalid exchange rate for " ++ code ++ ": " ++ rate
  | fetch cause => "Fx error: Rate fetch failed: " ++ cause.message
  | save reason => "Fx error: Save error: " ++ reason
  | cache reason => "Fx error: Cache error: " ++ reason
  | input cause => "Input validation failed: " ++ cause.message
  | malformedJson => "Input validation failed: Failed to parse JSON: unexpected text"
  | invalidSetting reason => "Invalid configuration value: " ++ reason
  | repository reason => "Repository error: " ++ reason

/-- The failure came from the rate source. -/
def isNetwork : Error → Bool
  | fetch _ => true
  | _ => false

/-- The same refresh may succeed later. -/
def isRetryable : Error → Bool
  | fetch cause => cause.retryClass == .withBackoff
  | _ => false

end Error
end CurrencyPad
