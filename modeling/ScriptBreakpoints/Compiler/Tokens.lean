import ScriptBreakpoints.Compiler
import ScriptBreakpoints.Text.Decimal
import ScriptBreakpoints.Text.Pieces

namespace ScriptBreakpoints.Tokens

def address? (token : List Char) : Option Address :=
  match token.span (· ≠ ':') with
  | (routine, ':' :: offset) => do return ⟨← Decimal.read? routine, ← Decimal.read? offset⟩
  | _ => none

def readToken (projection : Projection) : List Char → Except String (Option Address)
  | '!' :: reason => .error (String.ofList reason)
  | 'p' :: rest => tied .primary rest
  | 'd' :: rest => tied .derived rest
  | token => .ok (address? token)
where
  tied (owner : Projection) (rest : List Char) : Except String (Option Address) :=
    if owner ≠ projection then .ok none
    else if rest = ['?'] then .error "refused"
    else .ok (address? rest)

def scanLine (projection : Projection) (line column : Nat) :
    List (List Char) → Except CompileFault (List Entry)
  | [] => .ok []
  | ('#' :: _) :: _ => .ok []
  | token :: tokens =>
    match readToken projection token with
    | .error reason => .error ⟨reason, ⟨line, column⟩⟩
    | .ok a? => do
      let entries ← scanLine projection line (column + token.length + 1) tokens
      return (a?.map fun a => Entry.mk a ⟨line, column⟩).toList ++ entries

def scan (projection : Projection) (line : Nat) :
    List (List Char) → Except CompileFault (List Entry)
  | [] => .ok []
  | l :: ls => do
    let here ← scanLine projection line 0 (pieces ' ' l)
    return here ++ (← scan projection (line + 1) ls)

def parse (projection : Projection) (text : String) : Except CompileFault SourceMap := do
  Compiler.mapOf (← scan projection 0 (pieces '\n' text.toList))

def derivedHeader : List Char := "#derived\n".toList

def display : Projection → String → String
  | .primary, text => text
  | .derived, text => String.ofList (derivedHeader ++ text.toList)

def code : Projection → String → String
  | .primary, text => text
  | .derived, text =>
    if derivedHeader <+: text.toList then String.ofList (text.toList.drop derivedHeader.length)
    else text

def compiler : Compiler where
  compile projection text := do
    let map ← parse projection text
    return ⟨⟨Utf8.encode (code projection text)⟩, map⟩
  decompile projection binary := do
    let text := display projection (← Compiler.textOf binary)
    return ⟨text, ← parse projection text⟩

end ScriptBreakpoints.Tokens
