import Mathlib.Data.List.DropRight
import ScriptBreakpoints.Compiler.Listing

namespace ScriptBreakpoints

def Entry.below (e : Entry) : Entry := { e with place.line := e.place.line + 1 }

namespace Trim

variable {cs : List Char}

theorem both_eq (cs : List Char) : both cs = (start cs).rdropWhile isBlank := rfl

theorem both_cons {c : Char} (hc : isBlank c = false) (cs : List Char) :
    both (c :: cs) = (c :: cs).rdropWhile isBlank := by
  rw [both_eq, start, List.dropWhile_cons_of_neg (by simp [hc])]

theorem both_eq_self {c : Char} (hc : isBlank c = false)
    (hlast : ∀ d ∈ (c :: cs).getLast?, isBlank d = false) : both (c :: cs) = c :: cs := by
  rw [both_cons hc, List.rdropWhile_eq_self_iff]
  intro hne
  rw [hlast _ (List.getLast?_eq_some_getLast hne)]
  decide

theorem both_append {blanks : List Char} (h : ∀ c ∈ blanks, isBlank c = true) (cs : List Char) :
    both (blanks ++ cs) = both cs := by
  rw [both_eq, start, List.dropWhile_append_of_pos h]
  rfl

theorem both_both (cs : List Char) : both (both cs) = both cs := by
  cases hboth : both cs with
  | nil => rfl
  | cons c rest =>
    -- The first character that is left was not dropped at the start.
    have hc : isBlank c = false := by
      obtain ⟨tail, htail⟩ : both cs <+: start cs := List.rdropWhile_prefix _ _
      have hstart := List.head?_dropWhile_not isBlank cs
      rw [hboth] at htail
      rw [← start, ← htail] at hstart
      simpa using hstart
    rw [both_cons hc, ← hboth, both_eq, List.rdropWhile_idempotent]

theorem mem_of_mem_both {c : Char} (h : c ∈ both cs) : c ∈ cs :=
  (List.dropWhile_suffix _).mem ((List.rdropWhile_prefix _ _).mem h)

end Trim

namespace Listing

def headerLine (routine : UInt64) : List Char := keyword ++ Decimal.digits routine

def instructionLine (code : List Char) : List Char := ' ' :: ' ' :: ' ' :: ' ' :: code

theorem isBlank_of_isDigit {c : Char} (h : Decimal.isDigit c = true) : isBlank c = false := by
  simp only [Decimal.isDigit, Bool.and_eq_true, decide_eq_true_eq, Char.le_def,
    UInt32.le_iff_toNat_le] at h
  simp [isBlank, Char.ext_iff, ← UInt32.toNat_inj, UInt32.le_iff_toNat_le] at h ⊢
  omega

theorem exists_digits_eq_cons (n : UInt64) : ∃ c cs, Decimal.digits n = c :: cs ∧
    ∀ d ∈ c :: cs, Decimal.isDigit d = true := by
  obtain ⟨c, cs, hdigits⟩ := List.exists_cons_of_ne_nil (Decimal.digits_ne_nil n)
  exact ⟨c, cs, hdigits, fun d hd ↦ Decimal.isDigit_of_mem_digits (hdigits ▸ hd)⟩

theorem both_digits (n : UInt64) : Trim.both (Decimal.digits n) = Decimal.digits n := by
  obtain ⟨c, cs, hdigits, hall⟩ := exists_digits_eq_cons n
  rw [hdigits]
  apply Trim.both_eq_self (isBlank_of_isDigit (hall c List.mem_cons_self))
  intro d hd
  exact isBlank_of_isDigit (hall d (List.mem_of_getLast? hd))

theorem readSigned?_digits (n : UInt64) : Decimal.readSigned? (Decimal.digits n) = some n := by
  obtain ⟨c, cs, hdigits, hall⟩ := exists_digits_eq_cons n
  have hplus : c ≠ '+' := by
    rintro rfl
    exact absurd (hall '+' List.mem_cons_self) (by decide)
  rw [← Decimal.read?_digits n, hdigits]
  simp [Decimal.readSigned?, hplus]

theorem keyword_eq : keyword = ['r', 'o', 'u', 't', 'i', 'n', 'e', ' '] := String.toList_ofList

theorem not_mem_headerLine {routine : UInt64} {c : Char} (hkeyword : c ∉ keyword)
    (hdigit : Decimal.isDigit c = false) : c ∉ headerLine routine := by
  rw [headerLine, List.mem_append, not_or]
  refine ⟨hkeyword, fun hmem ↦ ?_⟩
  rw [Decimal.isDigit_of_mem_digits hmem] at hdigit
  cases hdigit

theorem both_headerLine (routine : UInt64) :
    Trim.both (headerLine routine) = headerLine routine := by
  have hlast : (headerLine routine).getLast? = (Decimal.digits routine).getLast? :=
    List.getLast?_append_of_ne_nil _ (Decimal.digits_ne_nil routine)
  have hdigit : ∀ d ∈ (headerLine routine).getLast?, isBlank d = false := by
    intro d hd
    rw [hlast] at hd
    exact isBlank_of_isDigit (Decimal.isDigit_of_mem_digits (List.mem_of_getLast? hd))
  rw [headerLine, keyword_eq, List.cons_append] at hdigit ⊢
  exact Trim.both_eq_self (by decide) hdigit

theorem read_headerLine (routine : UInt64) :
    Line.read (headerLine routine) = .ok (.header routine) := by
  have hblank : ¬ (headerLine routine = [] ∨ ['/', '/'] <+: headerLine routine) := by
    simp [headerLine, keyword_eq]
  have hmark : '!' ∉ headerLine routine := not_mem_headerLine (by decide) (by decide)
  have hkeyword : keyword <+: headerLine routine := List.prefix_append _ _
  rw [Line.read, both_headerLine, Line.ofTrimmed, if_neg hblank, if_neg hmark, if_pos hkeyword,
    headerLine, List.drop_left, both_digits, readSigned?_digits]

theorem ofTrimmed_eq_instruction {code c : List Char}
    (h : Line.ofTrimmed code = .ok (.instruction c)) : c = code := by
  unfold Line.ofTrimmed at h
  split_ifs at h
  · cases h
  · split at h <;> cases h
  · cases h
    rfl

theorem read_instructionLine {l code : List Char} (h : Line.read l = .ok (.instruction code)) :
    Line.read (instructionLine code) = .ok (.instruction code) := by
  have hcode : code = Trim.both l := ofTrimmed_eq_instruction h
  have hblanks : ∀ c ∈ [' ', ' ', ' ', ' '], isBlank c = true := by simp [isBlank]
  have hline : instructionLine code = [' ', ' ', ' ', ' '] ++ code := rfl
  rw [Line.read, hline, Trim.both_append hblanks, hcode, Trim.both_both]
  rw [← hcode]
  exact hcode ▸ h

/-- A listing that compiles, line by line: its canonical lines and its entries. -/
inductive Assembles :
    Nat → Option Address → List (List Char) → List (List Char) → List Entry → Prop
  | nil {line : Nat} {next : Option Address} : Assembles line next [] [] []
  | blank {line : Nat} {next : Option Address} {l : List Char} {ls code : List (List Char)}
      {entries : List Entry} :
      Line.read l = .ok .blank → Assembles (line + 1) next ls code entries →
      Assembles line next (l :: ls) code entries
  | header {line : Nat} {next : Option Address} {routine : UInt64} {l : List Char}
      {ls code : List (List Char)} {entries : List Entry} :
      Line.read l = .ok (.header routine) →
      Assembles (line + 1) (some ⟨routine, 0⟩) ls code entries →
      Assembles line next (l :: ls) (headerLine routine :: code) entries
  | instruction {line : Nat} {a : Address} {l c : List Char} {ls code : List (List Char)}
      {entries : List Entry} :
      Line.read l = .ok (.instruction c) →
      Assembles (line + 1) (some { a with offset := a.offset + 1 }) ls code entries →
      Assembles line (some a) (l :: ls) (instructionLine c :: code)
        (⟨a, ⟨line, Trim.indent l⟩⟩ :: entries)

theorem assemble_eq_ok {line : Nat} {next : Option Address} {ls code : List (List Char)}
    {entries : List Entry} :
    assemble line next ls = .ok (code, entries) ↔ Assembles line next ls code entries := by
  constructor
  · intro h
    induction ls generalizing line next code entries with
    | nil =>
      cases h
      exact .nil
    | cons l ls ih =>
      cases hread : Line.read l with
      | error reason => simp [assemble, hread] at h
      | ok said =>
        cases said with
        | blank =>
          simp only [assemble, hread] at h
          exact .blank hread (ih h)
        | header routine =>
          simp only [assemble, hread] at h
          cases hrest : assemble (line + 1) (some ⟨routine, 0⟩) ls with
          | error e =>
            rw [hrest] at h
            cases h
          | ok result =>
            rw [hrest] at h
            cases h
            exact .header hread (ih hrest)
        | instruction c =>
          cases next with
          | none => simp [assemble, hread] at h
          | some a =>
            simp only [assemble, hread] at h
            cases hrest : assemble (line + 1) (some { a with offset := a.offset + 1 }) ls with
            | error e =>
              rw [hrest] at h
              cases h
            | ok result =>
              rw [hrest] at h
              cases h
              exact .instruction hread (ih hrest)
  · intro h
    induction h with
    | nil => rfl
    | blank hread _ ih => simp only [assemble, hread, ih]
    | header hread _ ih =>
      simp only [assemble, hread, ih]
      rfl
    | instruction hread _ ih =>
      simp only [assemble, hread, ih]
      rfl

namespace Assembles

variable {line : Nat} {next : Option Address} {ls code : List (List Char)} {entries : List Entry}

theorem lower (h : Assembles line next ls code entries) :
    Assembles (line + 1) next ls code (entries.map Entry.below) := by
  induction h with
  | nil => exact .nil
  | blank hread _ ih => exact .blank hread ih
  | header hread _ ih => exact .header hread ih
  | instruction hread _ ih => exact .instruction hread ih

theorem concat_nil (h : Assembles line next ls code entries) :
    Assembles line next (ls ++ [[]]) code entries := by
  induction h with
  | nil => exact .blank rfl .nil
  | blank hread _ ih => exact .blank hread ih
  | header hread _ ih => exact .header hread ih
  | instruction hread _ ih => exact .instruction hread ih

theorem newline_not_mem (h : Assembles line next ls code entries)
    (hls : ∀ l ∈ ls, '\n' ∉ l) : ∀ l ∈ code, '\n' ∉ l := by
  induction h with
  | nil => exact hls
  | blank _ _ ih => exact ih (List.forall_mem_cons.1 hls).2
  | header _ _ ih =>
    exact List.forall_mem_cons.2
      ⟨not_mem_headerLine (by decide) (by decide), ih (List.forall_mem_cons.1 hls).2⟩
  | instruction hread _ ih =>
    obtain ⟨hl, hrest⟩ := List.forall_mem_cons.1 hls
    refine List.forall_mem_cons.2 ⟨?_, ih hrest⟩
    rw [ofTrimmed_eq_instruction hread]
    have hcode := mt Trim.mem_of_mem_both hl
    simpa [instructionLine] using hcode

/-- The canonical lines are their own canonical lines, and have the same addresses. -/
theorem normal (h : Assembles line next ls code entries) (line' : Nat) : ∃ entries',
    Assembles line' next code code entries' ∧
      entries'.map Entry.address = entries.map Entry.address := by
  induction h generalizing line' with
  | nil => exact ⟨[], .nil, rfl⟩
  | blank _ _ ih => exact ih line'
  | header _ _ ih =>
    obtain ⟨entries', hcode, haddresses⟩ := ih (line' + 1)
    exact ⟨entries', .header (read_headerLine _) hcode, haddresses⟩
  | instruction hread _ ih =>
    obtain ⟨entries', hcode, haddresses⟩ := ih (line' + 1)
    refine ⟨_, .instruction (read_instructionLine hread) hcode, ?_⟩
    rw [List.map_cons, List.map_cons, haddresses]

end Assembles

def canonical (code : List (List Char)) : String := String.ofList (code.flatMap (· ++ ['\n']))

theorem pieces_canonical {code : List (List Char)} (h : ∀ l ∈ code, '\n' ∉ l) :
    pieces '\n' (canonical code).toList = code ++ [[]] := by
  rw [canonical, String.toList_ofList]
  induction code with
  | nil => rfl
  | cons l code ih =>
    rw [List.flatMap_cons, List.append_assoc, List.singleton_append,
      pieces_append (h l List.mem_cons_self), ih fun l hl ↦ h l (List.mem_cons_of_mem _ hl),
      List.cons_append]

theorem mapOf_eq_ok {entries : List Entry} {map : SourceMap} :
    Compiler.mapOf entries = .ok map ↔ map.entries = entries := by
  obtain ⟨entries', hnodup⟩ := map
  rw [Compiler.mapOf, SourceMap.ofEntries]
  split
  · rename_i a hrepeated
    refine iff_of_false (fun h ↦ by cases h) ?_
    rintro rfl
    rw [firstRepeated?_eq_none_iff.2 ⟨hnodup, by simp⟩] at hrepeated
    cases hrepeated
  · simp [Except.mapError, eq_comm]

theorem parse_of_assembles {text : String} {code : List (List Char)} {map : SourceMap}
    (h : Assembles 0 none (pieces '\n' text.toList) code map.entries) :
    parse text = .ok (canonical code, map) := by
  simp only [parse, assemble_eq_ok.2 h, bind, Except.bind, mapOf_eq_ok.2 rfl]
  rfl

theorem assembles_of_parse {text result : String} {map : SourceMap}
    (h : parse text = .ok (result, map)) : ∃ code, result = canonical code ∧
      Assembles 0 none (pieces '\n' text.toList) code map.entries := by
  simp only [parse, bind, Except.bind] at h
  cases hassemble : assemble 0 none (pieces '\n' text.toList) with
  | error e =>
    rw [hassemble] at h
    cases h
  | ok assembled =>
    obtain ⟨code, entries⟩ := assembled
    simp only [hassemble] at h
    cases hmap : Compiler.mapOf entries with
    | error e =>
      rw [hmap] at h
      cases h
    | ok map' =>
      rw [hmap] at h
      cases h
      obtain rfl := mapOf_eq_ok.1 hmap
      exact ⟨code, rfl, assemble_eq_ok.1 hassemble⟩

def shown (projection : Projection) (entries : List Entry) : List Entry :=
  match projection with
  | .primary => entries
  | .derived => entries.map Entry.below

theorem assembles_display {text : String} {code : List (List Char)} {entries : List Entry}
    (h : Assembles 0 none (pieces '\n' text.toList) code entries) (projection : Projection) :
    Assembles 0 none (pieces '\n' (display projection text).toList) code
      (shown projection entries) := by
  cases projection with
  | primary => exact h
  | derived =>
    let comment : List Char :=
      ['/', '/', ' ', 'd', 'e', 'r', 'i', 'v', 'e', 'd', ' ', 'v', 'i', 'e', 'w']
    have hheader : derivedHeader.toList = comment ++ ['\n'] := String.toList_ofList
    have htext : (display .derived text).toList = comment ++ '\n' :: text.toList := by
      rw [display, String.toList_append, hheader, List.append_assoc, List.singleton_append]
    rw [htext, pieces_append (by decide)]
    exact .blank rfl h.lower

theorem addresses_shown (projection : Projection) (entries : List Entry) :
    (shown projection entries).map Entry.address = entries.map Entry.address := by
  cases projection with
  | primary => rfl
  | derived =>
    rw [shown, List.map_map]
    rfl

/-- The canonical text is its own canonical text, in both projections. -/
theorem parse_display {text result : String} {map : SourceMap}
    (h : parse text = .ok (result, map)) : ∃ entries : List Entry,
    entries.map Entry.address = map.entries.map Entry.address ∧ ∀ projection, ∃ map' : SourceMap,
      map'.entries = shown projection entries ∧
        parse (display projection result) = .ok (result, map') := by
  obtain ⟨code, rfl, hcode⟩ := assembles_of_parse h
  have hlines := hcode.newline_not_mem fun l hl ↦ not_mem_of_mem_pieces hl
  obtain ⟨entries, hnormal, haddresses⟩ := hcode.normal 0
  have hcanonical : Assembles 0 none (pieces '\n' (canonical code).toList) code entries := by
    rw [pieces_canonical hlines]
    exact hnormal.concat_nil
  refine ⟨entries, haddresses, fun projection ↦ ?_⟩
  have hnodup : ((shown projection entries).map Entry.address).Nodup := by
    rw [addresses_shown, haddresses]
    exact map.nodup
  refine ⟨⟨shown projection entries, hnodup⟩, rfl, ?_⟩
  exact parse_of_assembles (assembles_display hcanonical projection)

theorem compile_eq_ok {projection : Projection} {text : String} {compiled : Compiled} :
    compiler.compile projection text = .ok compiled ↔
      ∃ result, parse text = .ok (result, compiled.map) ∧
        compiled.binary = ⟨Utf8.encode result⟩ := by
  obtain ⟨binary, map⟩ := compiled
  simp only [compiler, bind, Except.bind, pure, Except.pure]
  rcases hparse : parse text with e | ⟨result, map'⟩
  · simp
  · simp only [Except.ok.injEq, Compiled.mk.injEq, Prod.mk.injEq]
    constructor
    · rintro ⟨rfl, rfl⟩
      exact ⟨result, ⟨rfl, rfl⟩, rfl⟩
    · rintro ⟨_, ⟨rfl, rfl⟩, rfl⟩
      exact ⟨rfl, rfl⟩

theorem decompile_encode {result : String} {projection : Projection} {map : SourceMap}
    (h : parse (display projection result) = .ok (result, map)) :
    compiler.decompile projection ⟨Utf8.encode result⟩ = .ok ⟨display projection result, map⟩ := by
  simp only [compiler, Compiler.textOf, Utf8.decode?_encode, bind, Except.bind, h]
  rfl

/-- The views that a binary is decompiled to: both have the addresses of the map that it was
compiled with, in the same order, the derived ones one line below the primary ones, and either text
compiles to the same binary, in either projection. -/
structure Regenerates (compiled : Compiled) (views : Dual View) : Prop where
  decompiles : ∀ p, compiler.decompile p compiled.binary = .ok (views.get p)
  addresses : ∀ p, (views.get p).map.entries.map Entry.address =
    compiled.map.entries.map Entry.address
  below : views.derived.map.entries = views.primary.map.entries.map Entry.below
  recompiles : ∀ p q, compiler.compile q (views.get p).text =
    .ok ⟨compiled.binary, (views.get p).map⟩

theorem exists_regenerates {projection : Projection} {text : String} {compiled : Compiled}
    (h : compiler.compile projection text = .ok compiled) :
    ∃ views : Dual View, Regenerates compiled views := by
  obtain ⟨result, hparse, hbinary⟩ := compile_eq_ok.1 h
  obtain ⟨entries, haddresses, hdisplay⟩ := parse_display hparse
  choose maps hmaps hreparse using hdisplay
  refine ⟨.ofFn fun p ↦ ⟨display p result, maps p⟩, ?_, ?_, ?_, ?_⟩
  · intro p
    rw [hbinary, Dual.get_ofFn]
    exact decompile_encode (hreparse p)
  · intro p
    rw [Dual.get_ofFn, hmaps p, addresses_shown, haddresses]
  · simp only [Dual.ofFn, hmaps, shown]
  · intro p q
    rw [Dual.get_ofFn]
    exact compile_eq_ok.2 ⟨result, hreparse p, hbinary⟩

end Listing

end ScriptBreakpoints
