import TimeSync.Text.Blank
import TimeSync.Text.Natural

/-!
# Server endpoints

An endpoint is written `host:port`, with brackets around a host that has a
colon.  Reading also accepts a host alone, with or without brackets, and takes
a text with several colons for an address without a port.
-/

namespace TimeSync

@[ext]
structure Endpoint where
  host : String
  port : UInt16 := 123
  /-- Delay in milliseconds above which replies of this server are refused; zero
  accepts any.  Where it is not set the limit for all servers holds. -/
  maxDelayMs : Option UInt64 := none
deriving DecidableEq

namespace Endpoint

def text (endpoint : Endpoint) : String :=
  let host := endpoint.host
  let port := endpoint.port
  if ':' ∈ host.toList then s!"[{host}]:{port}" else s!"{host}:{port}"

/-- A host and a port, which has to be written out. -/
def withPort? (host port : List Char) : Option Endpoint := do
  let port ← Text.natural16? port
  if host = [] then none else some { host := .ofList host, port }

def bracketed? (chars : List Char) : Option Endpoint :=
  let host := chars.takeWhile (· ≠ ']')
  match chars.dropWhile (· ≠ ']') with
  | [_] => if host = [] then none else some { host := .ofList host }
  | _ :: ':' :: port => withPort? host port
  | _ => none

def ofChars? (chars : List Char) : Option Endpoint :=
  match chars with
  | [] => none
  | '[' :: rest => bracketed? rest
  | _ =>
    match chars.count ':' with
    | 0 => some { host := .ofList chars }
    | 1 =>
      withPort? (chars.takeWhile (· ≠ ':')) ((chars.dropWhile (· ≠ ':')).drop 1)
    | _ => some { host := .ofList chars }

/-- Reads an endpoint, blanks around it left out.  What cannot be read is given
back without them. -/
def read (text : String) : Except String Endpoint :=
  let chars := Text.trim text.toList
  match ofChars? chars with
  | some endpoint => .ok endpoint
  | none => .error (.ofList chars)

end Endpoint

end TimeSync
