import ScriptBreakpoints.Placement
import ScriptBreakpoints.Text.Lines
import ScriptBreakpoints.View

namespace ScriptBreakpoints

structure Buffer where
  lines : List String
  modified : Bool := false
  /-- Where the instructions of the executed binary are. -/
  marks : Marks
  /-- Where the instructions of the last save are, until its reload. -/
  provisional : Option Marks := none
  markers : Std.ExtTreeMap Address Nat := ∅

namespace Buffer

def ofView (v : View) : Buffer := { lines := Lines.split v.text, marks := .ofMap v.map }

/-- A text that is newer than what the engine executes: the marks of the old text are gone. -/
def ofPending (v : View) : Buffer :=
  { lines := Lines.split v.text, marks := .empty, provisional := some (.ofMap v.map) }

def text (b : Buffer) : String := Lines.join b.lines

def markerLines (b : Buffer) : LineSet := .ofList (b.markers.toList.map (·.2))

def markersOn (b : Buffer) (line : Nat) : List Address :=
  (b.markers.toList.filter (·.2 = line)).map (·.1)

def follow (e : LineEdit) (b : Buffer) : Buffer :=
  { b with
    marks := b.marks.edit e
    provisional := b.provisional.map (·.edit e)
    markers := b.markers.filterMap fun _ line => e.line? line
    modified := true }

def insertLines (start : Nat) (new : List String) (b : Buffer) : Buffer :=
  let start := min start b.lines.length
  { b with lines := b.lines.take start ++ new ++ b.lines.drop start }.follow
    (.insert start new.length)

/-- Tells which breakpoints were shown on the lines that are gone. -/
def deleteLines (start stop : Nat) (b : Buffer) : List Address × Buffer :=
  let start := min start b.lines.length
  let stop := min stop b.lines.length
  if stop ≤ start then ([], b)
  else
    ((b.markers.toList.filter fun (_, line) => start ≤ line && line < stop).map (·.1),
      { b with lines := b.lines.take start ++ b.lines.drop stop }.follow (.delete start stop))

def mark (a : Address) (line : Nat) (b : Buffer) : Buffer :=
  { b with markers := b.markers.insert a line }

def showMarker (a : Address) (b : Buffer) : Buffer :=
  match b.marks.place? a with
  | some p => b.mark a p.line
  | none => b

def hideMarker (a : Address) (b : Buffer) : Buffer := { b with markers := b.markers.erase a }

/-- The marks by which breakpoints are shown, before a reload those of the last save. -/
def table (waiting : Bool) (b : Buffer) : Marks :=
  if waiting then b.provisional.getD b.marks else b.marks

/-- The edited text after a reload: nothing is shown, and the marks of the last save, which
followed the edits since, are the marks now. -/
def reload (waiting : Bool) (map : SourceMap) (b : Buffer) : Buffer :=
  let marks :=
    match b.provisional, waiting with
    | some provisional, true => provisional
    | _, _ => .ofMap map
  { b with marks, provisional := none, markers := ∅ }

end Buffer

end ScriptBreakpoints
