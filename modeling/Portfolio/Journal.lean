import Portfolio.Text.Unshown

/-! # Log events

What the library reports while it runs: a level, the part that speaks, a message and named
details. -/

namespace Portfolio

/-- How serious an event is, the least serious first. -/
inductive Level where
  | trace
  | debug
  | info
  | warn
  | error
  deriving DecidableEq, Repr

namespace Level

def name : Level → String
  | trace => "TRACE"
  | debug => "DEBUG"
  | info => "INFO"
  | warn => "WARN"
  | error => "ERROR"

def rank : Level → Nat
  | trace => 0
  | debug => 1
  | info => 2
  | warn => 3
  | error => 4

end Level

/-- A detail of an event. -/
inductive Detail where
  /-- Written as it is. -/
  | shown (text : String)
  /-- Written in quotes. -/
  | quoted (text : String)
  deriving DecidableEq, Repr

namespace Detail

/-- The text without quotes. -/
def text : Detail → String
  | shown s | quoted s => s

/-- A character inside quotes; what cannot be shown is its code point in hexadecimal digits. -/
def escape (c : Char) : List Char :=
  if c == '"' then ['\\', '"']
  else if c == '\\' then ['\\', '\\']
  else if c == '\n' then ['\\', 'n']
  else if c == '\r' then ['\\', 'r']
  else if c == '\t' then ['\\', 't']
  else if c.toNat == 0 then ['\\', '0']
  else if Text.isUnshown c then '\\' :: 'u' :: '\x7b' :: (Nat.toDigits 16 c.toNat ++ ['\x7d'])
  else [c]

def render : Detail → String
  | shown s => s
  | quoted s => String.ofList ('"' :: (s.toList.flatMap escape ++ ['"']))

end Detail

/-- The parts that report. -/
inductive Part where
  | program
  | exchanges
  | client
  | watcher
  | refresh
  | policy
  | valuation
  deriving DecidableEq, Repr

/-- The path of a part in a log line. -/
def Part.path : Part → String
  | program => "live_balance"
  | exchanges => "live_balance::exchanges"
  | client => "live_balance::exchanges::poloniex::client"
  | watcher => "live_balance::watcher"
  | refresh => "live_balance::sync::refresh"
  | policy => "live_balance::sync::policy"
  | valuation => "live_balance::valuation"

/-- Something to report. -/
structure Event where
  level : Level
  part : Part
  message : String
  details : List (String × Detail)
  deriving DecidableEq, Repr

/-- The level, the part, the message and the details on one line. -/
def Event.render (e : Event) : String :=
  e.level.name ++ " " ++ e.part.path ++ ": " ++
    " ".intercalate (e.message :: e.details.map fun d =>
      if d.1 = "message" then d.2.render else d.1 ++ "=" ++ d.2.render)

end Portfolio
