import PreparedSql.Failure.Conversion

/-! Why a value cannot be bound where a field type is asked for. -/
namespace PreparedSql

inductive Reason where
  | mustNotBeNull
  | expected (what : String) (v : Value)
  | numberRequired
  | listRequired
  | notConverted (fault : ConversionFault)
  | below (least : Int)
  | above (greatest : Int)
  | tooManyPlaces (scale : Nat)
  | tooManyWholeDigits (digits : Nat)
  | tooLong (limit length : Nat)
  | invalidEmail
  | invalidUrl
  | invalidSlug
  | invalidAddress
  | invalidUuid
  | invalidDate (text : String)
  | invalidMoment (text : String)
  | invalidTime (text : String)
  | notABindType

namespace Reason

def message : Reason → String
  | mustNotBeNull => "This field cannot be null"
  | expected what v => "Expected " ++ what ++ ", got " ++ v.inspect
  | numberRequired => "A number is required"
  | listRequired => "Expected a list of values"
  | notConverted fault => fault.message?.getD ""
  | below least => "Ensure this value is greater than or equal to " ++ toString least
  | above greatest => "Ensure this value is less than or equal to " ++ toString greatest
  | tooManyPlaces scale =>
    "Ensure that there are no more than " ++ toString scale ++ " decimal places"
  | tooManyWholeDigits digits =>
    "Ensure that there are no more than " ++ toString digits ++ " digits before the decimal point"
  | tooLong limit length =>
    "Ensure this value has at most " ++ toString limit ++ " characters (it has "
      ++ toString length ++ ")"
  | invalidEmail => "Enter a valid email address"
  | invalidUrl => "Enter a valid URL"
  | invalidSlug =>
    "Enter a valid slug consisting of letters, numbers, underscores or hyphens"
  | invalidAddress => "Enter a valid IPv4 or IPv6 address"
  | invalidUuid => "Enter a valid UUID"
  | invalidDate text =>
    "'" ++ text ++ "' value has an invalid date format, it must be in YYYY-MM-DD format"
  | invalidMoment text =>
    "'" ++ text
      ++ "' value has an invalid format, it must be in YYYY-MM-DD HH:MM[:ss[.uuuuuu]] format"
  | invalidTime text =>
    "'" ++ text ++ "' value has an invalid format, it must be in HH:MM[:ss[.uuuuuu]] format"
  | notABindType => "Auto and foreign key types must be cleaned through their bind type"

end Reason

end PreparedSql
