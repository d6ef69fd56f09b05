import Portfolio.Exchange.Basic
import Portfolio.Exchange.Budget
import Portfolio.Exchange.Poloniex.Request
import Portfolio.Json.Reader
import Portfolio.Number.Word
import Portfolio.Time.Timestamp

/-! # The client

A request spends from the budget before anything else, is sent through a transport, and is answered
with a body or an error. -/

namespace Portfolio.Poloniex

structure Response where
  status : Nat
  body : List UInt8

/-- What a transport delivers: a response or why there is none, and the nanoseconds until then. -/
structure Delivery where
  result : Except String Response
  latency : Nat

/-- Something that carries requests to a server; carrying may change it. -/
class Transport (τ : Type) where
  send : τ → Request → τ × Delivery

/-- A transport that never gets through. -/
structure Unreachable where
  reason : String

instance : Transport Unreachable where
  send t _ := (t, ⟨.error t.reason, 0⟩)

/-- Why a request has no body. -/
inductive ClientError where
  | spent (s : BudgetSpent)
  | request (reason : String)
  /-- A header could not be written. -/
  | header
  | api (code : Int) (message : String)
  deriving DecidableEq, Repr

/-- The text of an error that the server answered with. -/
def apiMessage (code : Int) (message : String) : String :=
  "poloniex api error " ++ toString code ++ ": " ++ message

def ClientError.message : ClientError → String
  | .spent s => s.message
  | .request reason => "request error: " ++ reason
  | .header => "invalid header value: failed to parse header value"
  | .api code message => apiMessage code message

/-- What the error is to the callers of an exchange. -/
def ClientError.toExchangeError : ClientError → ExchangeError
  | .spent s =>
    .rateLimited (toString s.used ++ "/" ++ toString s.limit ++ " requests per minute")
  | .request reason => .connection reason
  | .header => .internal ClientError.header.message
  | .api code message => .api (apiMessage code message)

/-- The code and the message of an error body; either may be missing. -/
def readError? (body : List UInt8) : Option (Option Int × Option String) := do
  match ← (← Json.Tree.ofBytes? body).fields? ["code", "message"] with
  | [code, message] =>
    let code ← Json.Tree.optional? (Json.Tree.int? (Word.least 32) (Word.greatest 32)) code
    let message ← Json.Tree.optional? Json.Tree.text? message
    pure (code, message)
  | _ => none

/-- The code and the message of an error response: the status stands in for a missing code, and the
body as text for a missing message. -/
def errorOf (r : Response) : Int × String :=
  let (code, message) := (readError? r.body).getD (none, none)
  (code.getD r.status, message.getD (String.ofList (Utf8.decodeLossy r.body)))

def Response.isError (r : Response) : Bool :=
  400 ≤ r.status && r.status < 600

structure Client (τ : Type) where
  credentials : Credentials
  budget : RequestBudget
  transport : τ

/-- A body or an error, the nanoseconds until it is there, and what is reported then. -/
structure Fetched where
  result : Except ClientError (List UInt8)
  latency : Nat
  events : List Event

/-- The report of an error that the server answered with. -/
def apiEvent (code : Int) (message : String) : Event :=
  ⟨.warn, .client, "api error",
    [("code", .shown (toString code)), ("message", .shown message)]⟩

/-- Reads a delivery: an error status is an error, every other one a success. -/
def Fetched.ofDelivery (d : Delivery) : Fetched :=
  match d.result with
  | .error reason => ⟨.error (.request reason), d.latency, []⟩
  | .ok r =>
    if r.isError then
      let (code, message) := errorOf r
      ⟨.error (.api code message), d.latency, [apiEvent code message]⟩
    else ⟨.ok r.body, d.latency, []⟩

namespace Client

variable {τ : Type}

def new (credentials : Credentials) (rateLimit : Option Nat) (now : Int) (transport : τ) :
    Client τ :=
  ⟨credentials, .new rateLimit now, transport⟩

/-- The request for an endpoint at a time in nanoseconds, if its headers can be written. -/
def request? (c : Client τ) (now : Int) (endpoint : String) (params : Params) (signed : Bool) :
    Option Request :=
  if signed then
    Request.signed? c.credentials endpoint params (Timestamp.ofNanos now).toMillis
  else some (.plain endpoint params)

def get [Transport τ] (c : Client τ) (now : Int) (endpoint : String) (params : Params)
    (signed : Bool) : Client τ × Fetched :=
  match c.budget.take now with
  | .error spent => (c, ⟨.error (.spent spent), 0, []⟩)
  | .ok budget =>
    let c := { c with budget }
    match c.request? now endpoint params signed with
    | none => (c, ⟨.error .header, 0, []⟩)
    | some request =>
      let (transport, delivery) := Transport.send c.transport request
      ({ c with transport }, .ofDelivery delivery)

end Client

end Portfolio.Poloniex
