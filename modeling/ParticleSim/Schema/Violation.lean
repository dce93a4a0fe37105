import ParticleSim.Json.Writer
import ParticleSim.Schema.Basic

namespace ParticleSim

inductive Complaint where
  | nothingAllowed
  | referenceTooDeep (name : String)
  | unresolvedReference (name : String)
  | wrongType (expected : List TypeName) (found : String)
  | notConstant (constant : Node)
  | notListed (found : Node) (allowed : List Node)
  | belowMinimum (value minimum : Float)
  | aboveMaximum (value maximum : Float)
  | notAbove (value bound : Float)
  | notBelow (value bound : Float)
  | tooShort (least : Nat)
  | tooLong (most : Nat)
  | noMatch (text pattern : String)
  | tooFewItems (least : Nat)
  | tooManyItems (most : Nat)
  | missing
  | unknownProperty (key : String)
  | noAlternative

structure Violation where
  path : Path
  complaint : Complaint

/-- A number in a message: whole numbers of up to fifteen digits as integers. -/
def plainNumber (x : Float) : String :=
  if Binary64.isWhole x && x.abs < 1e15 then String.ofList (intText (Binary64.exact x).floor)
  else messageNumber x

namespace Complaint

def message : Complaint → String
  | .nothingAllowed => "no value is allowed here"
  | .referenceTooDeep name => "reference \x60" ++ name ++ "\x60 nests too deeply"
  | .unresolvedReference name => "unresolved reference \x60" ++ name ++ "\x60"
  | .wrongType expected found =>
    "expected " ++ " or ".intercalate (expected.map TypeName.text) ++ ", found " ++ found
  | .notConstant constant => "must equal " ++ Json.compact constant
  | .notListed found allowed =>
    Json.compact found ++ " is not one of: " ++ ", ".intercalate (allowed.map Json.compact)
  | .belowMinimum value minimum =>
    plainNumber value ++ " is less than the minimum " ++ plainNumber minimum
  | .aboveMaximum value maximum =>
    plainNumber value ++ " is greater than the maximum " ++ plainNumber maximum
  | .notAbove value bound => plainNumber value ++ " must be greater than " ++ plainNumber bound
  | .notBelow value bound => plainNumber value ++ " must be less than " ++ plainNumber bound
  | .tooShort least => "must be at least " ++ toString least ++ " characters long"
  | .tooLong most => "must be at most " ++ toString most ++ " characters long"
  | .noMatch text pattern =>
    String.ofList (Escaped.quoted text.toList) ++
      " does not match pattern \x60" ++ pattern ++ "\x60"
  | .tooFewItems least => "must contain at least " ++ toString least ++ " items"
  | .tooManyItems most => "must contain at most " ++ toString most ++ " items"
  | .missing => "required property is missing"
  | .unknownProperty key => "unknown property \x60" ++ key ++ "\x60 is not allowed"
  | .noAlternative => "does not match any of the allowed alternatives"

end Complaint

def Violation.message (violation : Violation) : String :=
  violation.complaint.message

def Violation.text (violation : Violation) : String :=
  violation.path.text ++ ": " ++ violation.message

def reportText (violations : List Violation) : String :=
  "\n".intercalate (violations.map Violation.text)

end ParticleSim
