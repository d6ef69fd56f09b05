import Portfolio.Account.Params
import Portfolio.Digest.Hmac
import Portfolio.Text.Base64
import Portfolio.Text.Percent
import Portfolio.Text.Utf8

/-! # Signed requests

A request names its target, a path with a query of percent-encoded values in the order of their
names. A signed one carries the key, the time, and a keyed digest of the method, the path and the
query. -/

namespace Portfolio.Poloniex

structure Request where
  /-- The path, and the query after a question mark if there is one. -/
  target : String
  headers : List (String × String)
  deriving DecidableEq, Repr

/-- The key that names an account and the secret that signs for it. -/
structure Credentials where
  key : String
  secret : String
  deriving DecidableEq, Repr

/-- A name and its percent-encoded value. -/
def queryItem (p : String × String) : String :=
  p.1 ++ "=" ++ String.ofList (Percent.encode (Utf8.encode p.2))

/-- The parameters in ascending order of their names. -/
def queryOf (params : Params) : String :=
  "&".intercalate ((Keyed.sorted params).map queryItem)

def targetOf (endpoint query : String) : String :=
  if query.isEmpty then endpoint else endpoint ++ "?" ++ query

def signedText (endpoint query : String) : String :=
  "GET\n" ++ endpoint ++ "\n" ++ query

/-- The digest of what is signed, in Base64. -/
def signature (secret endpoint query : String) : String :=
  String.ofList (Base64.encode
    (Digest.hmacSha256 (Utf8.encode secret) (Utf8.encode (signedText endpoint query))))

/-- An octet that a header may hold: a tab or no control. -/
def isHeaderOctet (b : UInt8) : Bool :=
  b == 9 || (32 ≤ b && b != 127)

def isHeaderText (s : String) : Bool :=
  (Utf8.encode s).all isHeaderOctet

/-- How many milliseconds after its time a signed request is still good. -/
def receiveWindow : Nat := 5000

/-- The headers of a signed request, if the key can stand in one. -/
def signedHeaders? (c : Credentials) (endpoint query : String) (millis : Int) :
    Option (List (String × String)) :=
  if isHeaderText c.key then
    some [("key", c.key), ("signtimestamp", toString millis),
      ("signature", signature c.secret endpoint query), ("signaturemethod", "hmacSHA256"),
      ("recvwindow", toString receiveWindow)]
  else none

/-- The parameters of a signed request: its time wins over the caller's. -/
def stamped (params : Params) (millis : Int) : Params :=
  Keyed.set params "signTimestamp" (toString millis)

def Request.plain (endpoint : String) (params : Params) : Request :=
  ⟨targetOf endpoint (queryOf params), []⟩

/-- A signed request, if the key can stand in a header. -/
def Request.signed? (c : Credentials) (endpoint : String) (params : Params) (millis : Int) :
    Option Request :=
  let query := queryOf (stamped params millis)
  (signedHeaders? c endpoint query millis).map fun headers => ⟨targetOf endpoint query, headers⟩

end Portfolio.Poloniex
