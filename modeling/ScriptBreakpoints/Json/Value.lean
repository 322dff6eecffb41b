import ScriptBreakpoints.Json.Token

namespace ScriptBreakpoints.Json

/-- A value. Members keep their order, and a key may occur twice. -/
inductive Value
  | null
  | bool (value : Bool)
  | number (digits : Bytes)
  | string (raw : Bytes)
  | array (items : List Value)
  | object (members : List (Bytes × Value))

namespace Value

mutual

def tokens : Value → List Token
  | null => [.null]
  | bool b => [.bool b]
  | number digits => [.number digits]
  | string raw => [.string raw]
  | array items => .openArray :: itemTokens items ++ [.closeArray]
  | object members => .openObject :: memberTokens members ++ [.closeObject]

def itemTokens : List Value → List Token
  | [] => []
  | [v] => tokens v
  | v :: w :: items => tokens v ++ .comma :: itemTokens (w :: items)

def memberTokens : List (Bytes × Value) → List Token
  | [] => []
  | [(key, v)] => .string key :: .colon :: tokens v
  | (key, v) :: m :: members =>
    .string key :: .colon :: tokens v ++ .comma :: memberTokens (m :: members)

end

end Value

inductive Frame
  | array (items : List Value)
  | object (members : List (Bytes × Value)) (key : Bytes)

inductive Reader
  | value (stack : List Frame)
  | itemOrClose (stack : List Frame)
  | keyOrClose (stack : List Frame)
  | key (stack : List Frame) (members : List (Bytes × Value))
  | colon (stack : List Frame) (members : List (Bytes × Value)) (key : Bytes)
  | after (stack : List Frame) (v : Value)

namespace Reader

def enter (stack : List Frame) : Token → Option Reader
  | .openArray => some (.itemOrClose stack)
  | .openObject => some (.keyOrClose stack)
  | .null => some (.after stack .null)
  | .bool b => some (.after stack (.bool b))
  | .number digits => some (.after stack (.number digits))
  | .string raw => some (.after stack (.string raw))
  | _ => none

def step : Reader → Token → Option Reader
  | .value stack, t => enter stack t
  | .itemOrClose stack, .closeArray => some (.after stack (.array []))
  | .itemOrClose stack, t => enter (.array [] :: stack) t
  | .keyOrClose stack, .closeObject => some (.after stack (.object []))
  | .keyOrClose stack, .string k => some (.colon stack [] k)
  | .key stack members, .string k => some (.colon stack members k)
  | .colon stack members k, .colon => some (.value (.object members k :: stack))
  | .after (.array items :: stack) v, .comma => some (.value (.array (v :: items) :: stack))
  | .after (.array items :: stack) v, .closeArray =>
    some (.after stack (.array (v :: items).reverse))
  | .after (.object members k :: stack) v, .comma => some (.key stack ((k, v) :: members))
  | .after (.object members k :: stack) v, .closeObject =>
    some (.after stack (.object ((k, v) :: members).reverse))
  | _, _ => none

end Reader

def Value.ofTokens? (ts : List Token) : Option Value :=
  match ts.foldlM Reader.step (.value []) with
  | some (.after [] v) => some v
  | _ => none

def parse? (bytes : Bytes) : Option Value := (Json.tokens bytes).bind Value.ofTokens?

end ScriptBreakpoints.Json
