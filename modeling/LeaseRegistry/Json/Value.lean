import LeaseRegistry.Json.Token

/-!
# JSON values

The tree of a JSON text. `Json.ofTokens?` reads it off the tokens, one token at a time with the
containers still open on a stack, so that its depth is not bounded; `Json.tokens` lists a tree's
tokens. `Json.parse?` and `Json.bytes` are the same from and to bytes.
-/

namespace LeaseRegistry

open Json (Text Token Number)

/-- A JSON value. Members keep their order and their repetitions. -/
inductive Json where
  | null
  | bool (b : Bool)
  | number (n : Number)
  | string (s : Text)
  | array (items : List Json)
  | object (members : List (Text × Json))

namespace Json

instance : Inhabited Json := ⟨null⟩

def text (s : String) : Json := .string (some s)

def nat (n : Nat) : Json := .number (.ofNat n)

def record (members : List (String × Json)) : Json :=
  .object (members.map fun (k, v) => (some k, v))

/-! ## Tokens of a value -/

mutual

def tokensTo (rest : List Token) : Json → List Token
  | .null => .null :: rest
  | .bool b => .bool b :: rest
  | .number n => .number n :: rest
  | .string s => .string s :: rest
  | .array [] => .openArray :: .closeArray :: rest
  | .array (v :: vs) => .openArray :: tokensTo (itemTokensTo rest vs) v
  | .object [] => .openObject :: .closeObject :: rest
  | .object ((k, v) :: ms) =>
    .openObject :: .string k :: .colon :: tokensTo (memberTokensTo rest ms) v

/-- The items after the first one of an array, and its end. -/
def itemTokensTo (rest : List Token) : List Json → List Token
  | [] => .closeArray :: rest
  | v :: vs => .comma :: tokensTo (itemTokensTo rest vs) v

/-- The members after the first one of an object, and its end. -/
def memberTokensTo (rest : List Token) : List (Text × Json) → List Token
  | [] => .closeObject :: rest
  | (k, v) :: ms => .comma :: .string k :: .colon :: tokensTo (memberTokensTo rest ms) v

end

def tokens (v : Json) : List Token := v.tokensTo []

def bytes (v : Json) : List UInt8 := v.tokens.flatMap Token.bytes

/-! ## Reading -/

/-- A container that is still open, with its content so far in reverse. -/
inductive Open where
  | array (items : List Json)
  | object (members : List (Text × Json)) (key : Text)

inductive Expect where
  | value
  | itemOrEnd
  | keyOrEnd (members : List (Text × Json))
  | key (members : List (Text × Json))
  | colon (members : List (Text × Json)) (key : Text)
  | commaOrEnd
  | nothing (v : Json)

/-- A reader between two tokens. -/
structure Reader where
  stack : List Open
  expect : Expect

namespace Reader

def start : Reader := ⟨[], .value⟩

def deliver (v : Json) : List Open → Reader
  | [] => ⟨[], .nothing v⟩
  | .array items :: stack => ⟨.array (v :: items) :: stack, .commaOrEnd⟩
  | .object members key :: stack => ⟨.object ((key, v) :: members) key :: stack, .commaOrEnd⟩

def onValue (stack : List Open) : Token → Option Reader
  | .null => some (deliver .null stack)
  | .bool b => some (deliver (.bool b) stack)
  | .number n => some (deliver (.number n) stack)
  | .string s => some (deliver (.string s) stack)
  | .openArray => some ⟨.array [] :: stack, .itemOrEnd⟩
  | .openObject => some ⟨stack, .keyOrEnd []⟩
  | _ => none

def step (r : Reader) (t : Token) : Option Reader :=
  match r.expect with
  | .value => onValue r.stack t
  | .itemOrEnd =>
    match t, r.stack with
    | .closeArray, _ :: stack => some (deliver (.array []) stack)
    | t, stack => onValue stack t
  | .keyOrEnd members =>
    match t with
    | .closeObject => some (deliver (.object members.reverse) r.stack)
    | .string k => some ⟨r.stack, .colon members k⟩
    | _ => none
  | .key members =>
    match t with
    | .string k => some ⟨r.stack, .colon members k⟩
    | _ => none
  | .colon members k =>
    match t with
    | .colon => some ⟨.object members k :: r.stack, .value⟩
    | _ => none
  | .commaOrEnd =>
    match t, r.stack with
    | .comma, .array items :: stack => some ⟨.array items :: stack, .value⟩
    | .closeArray, .array items :: stack => some (deliver (.array items.reverse) stack)
    | .comma, .object members _ :: stack => some ⟨stack, .key members⟩
    | .closeObject, .object members _ :: stack => some (deliver (.object members.reverse) stack)
    | _, _ => none
  | .nothing _ => none

def run (r : Reader) : List Token → Option Reader
  | [] => some r
  | t :: ts =>
    match r.step t with
    | none => none
    | some r => r.run ts

end Reader

def ofTokens? (ts : List Token) : Option Json :=
  match Reader.start.run ts with
  | some ⟨_, .nothing v⟩ => some v
  | _ => none

def parse? (s : List UInt8) : Option Json :=
  (Token.scan s).bind ofTokens?

/-- The value of a JSON text that is kept as a whole: every string in it must be Unicode, every
number in range, and its nesting is bounded. -/
def parseKept? (s : List UInt8) : Option Json :=
  (Token.scan s).bind fun ts => if Token.allKeepable ts then ofTokens? ts else none

end Json

end LeaseRegistry
