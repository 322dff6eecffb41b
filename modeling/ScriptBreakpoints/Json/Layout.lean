import ScriptBreakpoints.Json.Token

namespace ScriptBreakpoints.Json

namespace Token

def text : Token → Bytes
  | openArray => [0x5b]
  | closeArray => [0x5d]
  | openObject => [0x7b]
  | closeObject => [0x7d]
  | comma => [0x2c]
  | colon => [0x3a]
  | null => Utf8.encode "null"
  | bool true => Utf8.encode "true"
  | bool false => Utf8.encode "false"
  | number digits => digits
  | string raw => 0x22 :: raw ++ [0x22]

end Token

def compact (ts : List Token) : Bytes := ts.flatMap Token.text

def newline (depth : Nat) : Bytes := 0x0a :: List.replicate (2 * depth) 0x20

def pretty (depth : Nat) : List Token → Bytes
  | [] => []
  | .openArray :: .closeArray :: ts => [0x5b, 0x5d] ++ pretty depth ts
  | .openObject :: .closeObject :: ts => [0x7b, 0x7d] ++ pretty depth ts
  | .openArray :: ts => 0x5b :: newline (depth + 1) ++ pretty (depth + 1) ts
  | .openObject :: ts => 0x7b :: newline (depth + 1) ++ pretty (depth + 1) ts
  | .closeArray :: ts => newline (depth - 1) ++ 0x5d :: pretty (depth - 1) ts
  | .closeObject :: ts => newline (depth - 1) ++ 0x7d :: pretty (depth - 1) ts
  | .comma :: ts => 0x2c :: newline depth ++ pretty depth ts
  | .colon :: ts => 0x3a :: 0x20 :: pretty depth ts
  | t :: ts => t.text ++ pretty depth ts

end ScriptBreakpoints.Json
