import PreparedSql.Failure.Reason

/-! What can go wrong between a query and its rows. A failure is a cause,
perhaps wrapped in the activities during which it came up; one function gives
every cause its words. -/
namespace PreparedSql

/-- What was going on when something failed. -/
inductive Activity where
  | executing (statement : String)
  | decodingUrl (url : String)
  | parsingUrl (url : String)
  | connecting (url : String)

inductive Failure where
  -- parameters and prepared statements
  | duplicateParameterName (name : String)
  | missingParameterType (name : String)
  | unsupportedLookup (lookup : String)
  | arrayParameterRequired (name : String)
  | arraySizeExceeded (name : String) (size length : Nat)
  | queryNotPrepared
  | operationOnPreparedStatement (operation : String)
  | incorrectBindParameter (expected received : List String)
  | invalidParameterType (name value : String) (reason : Reason)
  | unsupportedVendor (vendor : String)
  -- values and rows
  | conversion (fault : ConversionFault)
  | noColumns
  | fewerColumns (needed : Nat)
  | missingColumn (name : String) (labels : List String)
  -- building a query
  | filterAfterSlice
  | reorderAfterSlice
  | combineAfterSlice
  | updateAfterSlice
  | deleteAfterSlice
  | sliceByParameter
  | conflictingAlias (alias_ : String)
  | differentTables (left right : String)
  -- texts with holes, and their values
  | misplacedHole (offset : Nat) (text : String)
  | unregisteredToken (token : String)
  | missingSlot (statement : String) (slot : Nat)
  | missingElement (name : String) (element : Nat)
  | missingBound (name : String)
  -- answers
  | emptyCount
  | noMatch (table : String)
  | manyMatches (table : String) (count : Nat) (more : Bool)
  | undecodable (typeName : String) (text : String)
  | unreadableColumn (index : Nat) (name typeName : String)
  -- connections
  | foreignScheme (url driver : String)
  /-- A failure reported from outside of the library, in its words. -/
  | reported (message : String)
  /-- A failure reported from outside of the library, whose words do not matter. -/
  | foreign
  | during (activity : Activity) (cause : Failure)

namespace Activity

open Text (truncated)

def message : Activity → String
  | executing statement =>
    "While executing the prepared statement `" ++ truncated statement ++ "`"
  | decodingUrl url => "While decoding `" ++ truncated url ++ "`"
  | parsingUrl url => "While parsing the connection URL `" ++ truncated url ++ "`"
  | connecting url => "While trying to connect to `" ++ truncated url ++ "`"

end Activity

/-- One step of the way from what was attempted to what failed. -/
inductive Link where
  | words (message : String)
  | foreign
  deriving DecidableEq

namespace Failure

open Text (quoted truncated)

def quotedList (texts : List String) : String :=
  Value.bracketed (texts.map quoted)

/-- The words for the outermost step; nothing when it is reported by somebody else. -/
def message? : Failure → Option String
  | duplicateParameterName name =>
    "Bind parameter `" ++ name ++ "` is already registered on this query"
  | missingParameterType name =>
    "Bind parameter `" ++ name ++ "` has no field type, declare it or compare it with a column"
  | unsupportedLookup lookup =>
    "Lookup `" ++ lookup ++ "` is not supported in prepared statements"
  | arrayParameterRequired name =>
    "Bind parameter `" ++ name
      ++ "` is used in a membership test and must be an array parameter"
  | arraySizeExceeded name size length =>
    "Bind parameter `" ++ name ++ "` accepts at most " ++ toString size ++ " values, "
      ++ toString length ++ " were supplied"
  | queryNotPrepared => "Query is not prepared, call prepare() before executing it"
  | operationOnPreparedStatement operation =>
    operation ++ " is not allowed on a prepared statement"
  | incorrectBindParameter expected received =>
    "Incorrect bind parameters: expected " ++ quotedList expected ++ ", received "
      ++ quotedList received
  | invalidParameterType name value reason =>
    value ++ " is incorrect type for `" ++ name ++ "` parameter: " ++ reason.message
  | unsupportedVendor vendor =>
    "Prepared statements are not supported for vendor `" ++ vendor ++ "`"
  | conversion fault => fault.message?
  | noColumns => "The row does not have any column"
  | fewerColumns needed => "The row has less than " ++ toString needed ++ " columns"
  | missingColumn name labels =>
    "Column `" ++ name ++ "` is missing from the row " ++ quotedList labels
  | filterAfterSlice => "Cannot filter a query once a slice has been taken"
  | reorderAfterSlice => "Cannot reorder a query once a slice has been taken"
  | combineAfterSlice => "Cannot combine queries once a slice has been taken"
  | updateAfterSlice => "Cannot update a query once a slice has been taken"
  | deleteAfterSlice => "Cannot delete a query once a slice has been taken"
  | sliceByParameter =>
    "Cannot slice again a query when one of the bounds is a bind parameter"
  | conflictingAlias alias_ =>
    "The annotation `" ++ alias_ ++ "` conflicts with another annotation"
  | differentTables left right =>
    "Cannot combine queries on different tables `" ++ left ++ "` and `" ++ right ++ "`"
  | misplacedHole offset text =>
    "Parameter offset " ++ toString offset ++ " is not valid for the query `"
      ++ truncated text ++ "`"
  | unregisteredToken token =>
    "Token `" ++ token ++ "` does not belong to any registered bind parameter"
  | missingSlot statement slot => "Statement `" ++ statement ++ "` has no slot " ++ toString slot
  | missingElement name element =>
    "No value for element " ++ toString element ++ " of bind parameter `" ++ name ++ "`"
  | missingBound name => "No value for the slice bound `" ++ name ++ "`"
  | emptyCount => "The count query did not return any row"
  | noMatch table => table ++ " matching query does not exist"
  | manyMatches table count more =>
    "get() returned more than one " ++ table ++ ", it returned "
      ++ (if more then "more than " else "") ++ toString count
  | undecodable typeName text =>
    "Cannot decode the Postgres type `" ++ typeName ++ "`, value: `" ++ text ++ "`"
  | unreadableColumn index name typeName =>
    "Could not deserialize column " ++ toString index ++ " `" ++ name ++ "`: " ++ typeName
  | foreignScheme url driver =>
    "Connection URL `" ++ truncated url ++ "` must start with `" ++ driver ++ "://`"
  | reported message => message
  | foreign => none
  | during activity _ => activity.message

/-- A step as a link of the chain. -/
def link (f : Failure) : Link :=
  match f.message? with
  | some message => .words message
  | none => .foreign

/-- The steps from the outermost to the cause. -/
def chain : Failure → List Link
  | during activity cause => .words activity.message :: chain cause
  | conversion fault =>
    (conversion fault).link :: if fault.hasForeignCause then [.foreign] else []
  | f => [f.link]

/-- The failure without the activities around it. -/
def cause : Failure → Failure
  | during _ inner => inner.cause
  | f => f

/-- All steps in one line. -/
def summary (f : Failure) : String :=
  String.intercalate ": " (f.chain.map fun
    | .words message => message
    | .foreign => "")

end Failure

end PreparedSql
