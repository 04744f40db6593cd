import Referral.Number.Digits

namespace Referral.Schema

inductive Step where
  | key (name : String)
  | index (i : Nat)
  deriving DecidableEq

inductive TimeReason where
  | tooShort
  | yearDigit
  | monthDigit
  | dayDigit
  | dateSeparator
  | monthRange
  | dayRange
  | extraCharacters
  | tooEarly
  | tooLate
  | yearZero
  | notANumber
  deriving DecidableEq

inductive Reason where
  | missing
  | endless
  | notText
  | brokenText
  | emptyText
  | notList
  | notMapping
  | notDocument (name : String)
  | notBool
  | unclearBool
  | notInteger
  | malformedInteger
  | oversizeInteger
  | fractionalInteger
  | notDecimal
  | malformedDecimal
  | notFinite
  | tooManyDigits (limit : Nat)
  | tooManyPlaces (limit : Nat)
  | tooManyWholeDigits (limit : Nat)
  | belowZero
  | notOneOf (choices : List String)
  | notTime
  | malformedTime (why : TimeReason)
  | unreachableTime (why : TimeReason)
  deriving DecidableEq

structure Fault where
  loc : List Step
  reason : Reason
  deriving DecidableEq

def TimeReason.message : TimeReason → String
  | tooShort => "input is too short"
  | yearDigit => "invalid character in year"
  | monthDigit => "invalid character in month"
  | dayDigit => "invalid character in day"
  | dateSeparator => "invalid date separator, expected \x60-\x60"
  | monthRange => "month value is outside expected range of 1-12"
  | dayRange => "day value is outside expected range"
  | extraCharacters => "unexpected extra characters at the end of the input"
  | tooEarly => "dates before 0000 are not supported as unix timestamps"
  | tooLate => "dates after 9999 are not supported as unix timestamps"
  | yearZero => "year 0 is out of range"
  | notANumber => "NaN values not permitted"

def listed : List String → String
  | [] => ""
  | [a] => "\x27" ++ a ++ "\x27"
  | [a, b] => "\x27" ++ a ++ "\x27 or \x27" ++ b ++ "\x27"
  | a :: rest => "\x27" ++ a ++ "\x27, " ++ listed rest

/-- Where a document came from, which shows in what is said when it is no mapping. -/
inductive Origin where
  | caller
  | body

def Reason.message (origin : Origin) : Reason → String
  | missing => "Field required"
  | endless => "Recursion error - cyclic reference detected"
  | notText => "Input should be a valid string"
  | brokenText => "Input should be a valid string, unable to parse raw data as a unicode string"
  | emptyText => "String should have at least 1 character"
  | notList => "Input should be a valid list"
  | notMapping => "Input should be a valid dictionary"
  | notDocument name =>
    match origin with
    | .caller => "Input should be a valid dictionary or instance of " ++ name
    | .body => "Input should be a valid dictionary or object to extract fields from"
  | notBool => "Input should be a valid boolean"
  | unclearBool => "Input should be a valid boolean, unable to interpret input"
  | notInteger => "Input should be a valid integer"
  | malformedInteger => "Input should be a valid integer, unable to parse string as an integer"
  | oversizeInteger => "Unable to parse input string as an integer, exceeded maximum size"
  | fractionalInteger => "Input should be a valid integer, got a number with a fractional part"
  | notDecimal => "Decimal input should be an integer, float, string or Decimal object"
  | malformedDecimal => "Input should be a valid decimal"
  | notFinite => "Input should be a finite number"
  | tooManyDigits limit =>
    "Decimal input should have no more than " ++ decimalDigits limit ++ " digits in total"
  | tooManyPlaces limit =>
    "Decimal input should have no more than " ++ decimalDigits limit ++ " decimal places"
  | tooManyWholeDigits limit =>
    "Decimal input should have no more than " ++ decimalDigits limit ++
      " digits before the decimal point"
  | belowZero => "Input should be greater than or equal to 0"
  | notOneOf choices => "Input should be " ++ listed choices
  | notTime => "Input should be a valid datetime"
  | malformedTime why => "Input should be a valid datetime or date, " ++ why.message
  | unreachableTime why => "Input should be a valid datetime, " ++ why.message

end Referral.Schema
