import TimeSync.Json.Token

/-!
# JSON documents

`Json.chars` writes a value without any space, and `Json.parse?` reads a text
that holds one value.  Reading keeps the containers that are still open on a
stack, so that their depth is not limited.
-/

namespace TimeSync.Json

def separated : List (List Token) → List Token
  | [] => []
  | [tokens] => tokens
  | tokens :: rest => tokens ++ .comma :: separated rest

mutual

def tokens : Json → List Token
  | .null => [.null]
  | .bool value => [.bool value]
  | .number written => [.number written]
  | .text content => [.text content]
  | .array elements => .openArray :: (separated (elementTokens elements) ++ [.closeArray])
  | .object members => .openObject :: (separated (memberTokens members) ++ [.closeObject])

def elementTokens : List Json → List (List Token)
  | [] => []
  | element :: rest => tokens element :: elementTokens rest

def memberTokens : List (Option String × Json) → List (List Token)
  | [] => []
  | (name, value) :: rest =>
    (.text name :: .colon :: tokens value) :: memberTokens rest

end

def chars (json : Json) : List Char := json.tokens.flatMap Token.chars

def render (json : Json) : String := String.ofList json.chars

/-- A container that is still open, with what it holds so far, the last first. -/
inductive Frame where
  | array (done : List Json)
  | object (done : List (Option String × Json)) (name : Option String)

inductive Expected where
  | value
  | valueOrClose
  | name (done : List (Option String × Json))
  | nameOrClose
  | colon (done : List (Option String × Json)) (name : Option String)
  /-- A value is complete: a comma, a closing bracket or the end. -/
  | rest (value : Json)

structure Reading where
  expected : Expected
  frames : List Frame

/-- A value begins, or is already complete. -/
def startValue (frames : List Frame) : Token → Option Reading
  | .null => some ⟨.rest .null, frames⟩
  | .bool value => some ⟨.rest (.bool value), frames⟩
  | .number written => some ⟨.rest (.number written), frames⟩
  | .text content => some ⟨.rest (.text content), frames⟩
  | .openArray => some ⟨.valueOrClose, frames⟩
  | .openObject => some ⟨.nameOrClose, frames⟩
  | _ => none

def Reading.step (reading : Reading) (token : Token) : Option Reading :=
  match reading.expected, token with
  | .value, _ => startValue reading.frames token
  | .valueOrClose, .closeArray => some ⟨.rest (.array []), reading.frames⟩
  | .valueOrClose, _ => startValue (.array [] :: reading.frames) token
  | .name done, .text name => some ⟨.colon done name, reading.frames⟩
  | .nameOrClose, .text name => some ⟨.colon [] name, reading.frames⟩
  | .nameOrClose, .closeObject => some ⟨.rest (.object []), reading.frames⟩
  | .colon done name, .colon => some ⟨.value, .object done name :: reading.frames⟩
  | .rest value, .comma =>
    match reading.frames with
    | .array done :: frames => some ⟨.value, .array (value :: done) :: frames⟩
    | .object done name :: frames => some ⟨.name ((name, value) :: done), frames⟩
    | [] => none
  | .rest value, .closeArray =>
    match reading.frames with
    | .array done :: frames => some ⟨.rest (.array (value :: done).reverse), frames⟩
    | _ => none
  | .rest value, .closeObject =>
    match reading.frames with
    | .object done name :: frames =>
      some ⟨.rest (.object ((name, value) :: done).reverse), frames⟩
    | _ => none
  | _, _ => none

def Reading.run (reading : Reading) (tokens : List Token) : Option Reading :=
  tokens.foldlM Reading.step reading

def ofTokens? (tokens : List Token) : Option Json := do
  match ← Reading.run ⟨.value, []⟩ tokens with
  | ⟨.rest value, []⟩ => some value
  | _ => none

def parse? (text : List Char) : Option Json := scan text >>= ofTokens?

end TimeSync.Json
