namespace ScriptBreakpoints.Decimal

def isDigit (c : Char) : Bool := '0' ≤ c && c ≤ '9'

def value (digits : List Char) : Nat :=
  digits.foldl (fun n c => 10 * n + (c.toNat - '0'.toNat)) 0

def digits (n : UInt64) : List Char := Nat.toDigits 10 n.toNat

def read? (cs : List Char) : Option UInt64 :=
  if cs ≠ [] ∧ cs.all isDigit ∧ value cs < UInt64.size then some (.ofNat (value cs)) else none

/-- As `read?`, and a plus sign may stand in front. -/
def readSigned? : List Char → Option UInt64
  | '+' :: cs => read? cs
  | cs => read? cs

theorem isDigit_of_mem_digits {n : UInt64} {c : Char} (h : c ∈ digits n) : isDigit c := by
  have hd : c.isDigit := Nat.isDigit_of_mem_toDigits (by decide) (by decide) h
  simpa [isDigit, Char.isDigit, Char.le_def, UInt32.le_iff_toNat_le] using hd

theorem digits_ne_nil (n : UInt64) : digits n ≠ [] := Nat.toDigits_ne_nil

theorem value_digits (n : UInt64) : value (digits n) = n.toNat := Nat.ofDigitChars_ten_toDigits

theorem read?_digits (n : UInt64) : read? (digits n) = some n := by
  have hdigits : (digits n).all isDigit := List.all_eq_true.2 fun _ hc ↦ isDigit_of_mem_digits hc
  rw [read?, if_pos ⟨digits_ne_nil n, hdigits, by rw [value_digits]; exact n.toNat_lt_size⟩,
    value_digits, UInt64.ofNat_toNat]

end ScriptBreakpoints.Decimal
