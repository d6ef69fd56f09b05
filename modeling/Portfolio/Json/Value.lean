import Portfolio.Number.FloatText

/-! # JSON values

A number is a whole number of sixty-four bits, signed or unsigned, or else a binary64 number. An
object keeps its members in the order of their insertion. -/

namespace Portfolio.Json

/-- A number as a document holds it. -/
inductive Number where
  | int (n : Int)
  | float (x : Float)
  deriving BEq, Repr, Inhabited

/-- The number in binary64, rounded if it is whole and long. -/
def Number.toFloat : Number → Float
  | .int n => if n < 0 then -Float.ofNat n.natAbs else Float.ofNat n.natAbs
  | .float x => x

inductive Value where
  | null
  | bool (b : Bool)
  | number (n : Number)
  | string (s : String)
  | array (items : List Value)
  | object (members : List (String × Value))
  deriving Inhabited, Repr

namespace Value

/-- The word for the kind of a value. -/
def kind : Value → String
  | null => "null"
  | bool _ => "bool"
  | number _ => "number"
  | string _ => "string"
  | array _ => "array"
  | object _ => "object"

def isObject : Value → Bool
  | object _ => true
  | _ => false

/-- The member of that name; a later one hides an earlier one. -/
def get? (members : List (String × Value)) (name : String) : Option Value :=
  members.reverse.lookup name

end Value

/-- Numbers in documents: always with a fraction or an exponent, and positional from a hundred
thousandth up to ten thousand million million. -/
def floatStyle : FloatStyle := ⟨some (-5), some 16, true, true⟩

/-- The text of a binary64 number; what is no finite number is `null`. -/
def renderFloat (x : Float) : String :=
  if Binary64.isFinite x then floatStyle.render x else "null"

def escape (c : Char) : List Char :=
  if c == '"' then ['\\', '"']
  else if c == '\\' then ['\\', '\\']
  else if c == '\n' then ['\\', 'n']
  else if c == '\r' then ['\\', 'r']
  else if c == '\t' then ['\\', 't']
  else if c.toNat == 8 then ['\\', 'b']
  else if c.toNat == 12 then ['\\', 'f']
  else if c.toNat < 32 then
    ['\\', 'u', '0', '0', Nat.digitChar (c.toNat / 16), Nat.digitChar (c.toNat % 16)]
  else [c]

def quote (s : String) : String :=
  String.ofList ('"' :: (s.toList.flatMap escape ++ ['"']))

/-- The texts with commas between them, in brackets. -/
def enclose (left : Char) (items : List String) (right : Char) : String :=
  left.toString ++ ",".intercalate items ++ right.toString

mutual

/-- The document without blanks. -/
def Value.render : Value → String
  | .null => "null"
  | .bool b => if b then "true" else "false"
  | .number (.int n) => toString n
  | .number (.float x) => renderFloat x
  | .string s => quote s
  | .array items => enclose '[' (renderItems items) ']'
  | .object members => enclose '\x7b' (renderMembers members) '\x7d'

def renderItems : List Value → List String
  | [] => []
  | v :: vs => v.render :: renderItems vs

def renderMembers : List (String × Value) → List String
  | [] => []
  | (k, v) :: ms => (quote k ++ ":" ++ v.render) :: renderMembers ms

end

example : (Value.array [.number (.float 1e16), .string "a\"b"]).render = "[1e+16,\"a\\\"b\"]" := by
  decide +kernel

end Portfolio.Json
