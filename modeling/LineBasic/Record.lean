import LineBasic.LineNumber
import LineBasic.Token

/-! # Line records: a label and the tokens of the line, each with the place where it starts -/
namespace LineBasic
set_option autoImplicit false

/-- The offset counts code points from the start of the line. A comment sits four after its REM,
whatever separates the two. -/
structure PositionedToken where
  offset : Nat
  token : Token
  deriving DecidableEq, Repr

structure LineRecord where
  label : LineNumber
  tokens : List PositionedToken
  deriving DecidableEq, Repr

/-- A record and the place of its line in the source, counted from one. -/
structure IndexedRecord where
  index : Nat
  record : LineRecord
  deriving DecidableEq, Repr

def PositionedToken.display (positioned : PositionedToken) : String :=
  positioned.token.display ++ "@" ++ Text.decimal positioned.offset

def LineRecord.display (record : LineRecord) : String :=
  if record.tokens.isEmpty then record.label.text ++ ":"
  else record.label.text ++ ": " ++ " ".intercalate (record.tokens.map PositionedToken.display)

def Payload.toJson : Payload → Text.Json
  | .text value => .string value
  | .number value => .number value

/-- The value is left out where a token has no payload. -/
def PositionedToken.toJson (positioned : PositionedToken) : Text.Json :=
  .object ([("kind", .string positioned.token.kindName), ("offset", .number positioned.offset)] ++
    positioned.token.payload?.toList.map fun payload => ("value", payload.toJson))

def IndexedRecord.toJson (indexed : IndexedRecord) : Text.Json :=
  .object [("line", .number indexed.index), ("lineNumber", .number indexed.record.label.val),
    ("tokens", .array (indexed.record.tokens.map PositionedToken.toJson))]

end LineBasic
