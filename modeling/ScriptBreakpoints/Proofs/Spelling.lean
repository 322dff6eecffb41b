import Mathlib.Data.List.TakeWhile
import ScriptBreakpoints.Json.Fields

namespace ScriptBreakpoints.Json

inductive SpelledAs (b : UInt8) : Bytes → Prop
  | plain : b ≠ 0x22 → b ≠ 0x5c → ¬b < 0x20 → SpelledAs b [b]
  | short {c : UInt8} : c ≠ 0x75 → isShortEscape c → shortEscape? c = some b →
      SpelledAs b [0x5c, c]
  | code {x y : UInt8} : isHexDigit x → isHexDigit y → unit? 0x30 0x30 x y = some b.toNat →
      b < 0x20 → SpelledAs b [0x5c, 0x75, 0x30, 0x30, x, y]

theorem hexValue_hexDigit : ∀ n < 16, isHexDigit (hexDigit n) ∧ hexValue (hexDigit n) = some n := by
  decide

theorem spelledAs_spellByte (b : UInt8) : SpelledAs b (spellByte b) := by
  have hb := b.toNat_lt
  obtain ⟨hx, hxv⟩ := hexValue_hexDigit (b.toNat / 16) (by omega)
  obtain ⟨hy, hyv⟩ := hexValue_hexDigit (b.toNat % 16) (by omega)
  unfold spellByte
  split
  case h_8 h22 h5c _ _ _ _ _ =>
    split
    case isTrue hlt =>
      refine .code hx hy ?_ hlt
      have hzero : hexValue 0x30 = some 0 := by decide
      simp only [unit?, hzero, hxv, hyv, bind, Option.bind, pure, Option.some.injEq]
      omega
    case isFalse hlt => exact .plain h22 h5c hlt
  all_goals exact .short (by decide) (by decide) rfl

namespace Lexer

/-- The lexer takes the bytes as the next part of a string that it is inside of. -/
def Swallows (raw : Bytes) : Prop :=
  ∀ found read, raw.foldlM step ⟨found, .string read⟩ = some ⟨found, .string (raw.reverse ++ read)⟩

theorem Swallows.append {raw raw' : Bytes} (h : Swallows raw) (h' : Swallows raw') :
    Swallows (raw ++ raw') := by
  intro found read
  rw [List.foldlM_append, h, Option.bind_eq_bind, Option.bind_some, h', List.reverse_append,
    List.append_assoc]

theorem swallows_spelledAs {b : UInt8} {raw : Bytes} (h : SpelledAs b raw) : Swallows raw := by
  intro found read
  cases h with
  | plain hq hs hc => simp [step, hq, hs, hc]
  | short hu he _ => simp [step, hu, he]
  | code hx hy _ _ =>
    have hzero : isHexDigit 0x30 := by decide
    simp [step, hx, hy, hzero]

theorem swallows_spell (s : String) : Swallows (spell s) := by
  unfold spell
  induction Utf8.encode s with
  | nil => exact fun _ _ ↦ rfl
  | cons b bytes ih =>
    rw [List.flatMap_cons]
    exact (swallows_spelledAs (spelledAs_spellByte b)).append ih

end Lexer

theorem scalarBytes_control : ∀ n < 0x20, scalarBytes n = [UInt8.ofNat n] := by decide

theorem unspell?_spelledAs {b : UInt8} {raw : Bytes} (h : SpelledAs b raw) (rest : Bytes) :
    unspell? (raw ++ rest) = (unspell? rest).map (b :: ·) := by
  cases h with
  | plain _ hs _ =>
    rw [List.singleton_append, unspell?]
    all_goals simp_all
  | @short c hu _ hb =>
    simp only [List.cons_append, List.nil_append]
    rw [unspell?]
    · simp only [hb]
    · intro a b' c' d rest' hc
      exact absurd hc hu
  | code _ _ hb hlt =>
    have hn : b.toNat < 0x20 := hlt
    have hhigh : isHighSurrogate b.toNat = false := by simp [isHighSurrogate]; omega
    have hlow : isLowSurrogate b.toNat = false := by simp [isLowSurrogate]; omega
    simp only [List.cons_append, List.nil_append]
    rw [unspell?]
    simp [hb, hhigh, hlow, scalarBytes_control _ hn]

theorem unspell?_spell (bytes : Bytes) : unspell? (bytes.flatMap spellByte) = some bytes := by
  induction bytes with
  | nil => simp [unspell?]
  | cons b bytes ih =>
    rw [List.flatMap_cons, unspell?_spelledAs (spelledAs_spellByte b), ih, Option.map_some]

theorem read?_spell (s : String) : read? (spell s) = some s := by
  rw [read?, spell, unspell?_spell, Option.bind_some, Utf8.decode?_encode]

namespace Number

def digits (n : UInt64) : Bytes := (Decimal.digits n).map fun c ↦ c.toUInt8

theorem toNat_of_isDigit {c : Char} (h : Decimal.isDigit c) : 0x30 ≤ c.toNat ∧ c.toNat ≤ 0x39 := by
  simpa [Decimal.isDigit, Char.le_def, UInt32.le_iff_toNat_le] using h

theorem toNat_toUInt8 {c : Char} (h : Decimal.isDigit c) : c.toUInt8.toNat = c.toNat := by
  have hc : c.val.toNat ≤ 0x39 := (toNat_of_isDigit h).2
  change c.val.toUInt8.toNat = c.val.toNat
  rw [UInt32.toNat_toUInt8]
  omega

theorem isDigit_toUInt8 {c : Char} (h : Decimal.isDigit c) : isDigit c.toUInt8 := by
  simpa [isDigit, UInt8.le_iff_toNat_le, toNat_toUInt8 h] using toNat_of_isDigit h

theorem isDigit_of_mem_digits {n : UInt64} {b : UInt8} (h : b ∈ digits n) : isDigit b := by
  obtain ⟨c, hc, rfl⟩ := List.mem_map.1 h
  exact isDigit_toUInt8 (Decimal.isDigit_of_mem_digits hc)

theorem head?_toDigits {n : Nat} (hn : 0 < n) : (Nat.toDigits 10 n).head? ≠ some '0' := by
  induction n using Nat.strongRecOn with
  | ind n ih =>
    by_cases h : n < 10
    · have hchar : ∀ k < 10, 0 < k → [Nat.digitChar k].head? ≠ some '0' := by decide
      rw [Nat.toDigits_of_lt_base h]
      exact hchar n h hn
    · obtain ⟨c, cs, hc⟩ := List.exists_cons_of_ne_nil (Nat.toDigits_ne_nil (n := n / 10) (b := 10))
      have hhead := ih (n / 10) (by omega) (by omega)
      rw [hc] at hhead
      rw [Nat.toDigits_of_base_le (by decide) (by omega), hc]
      exact hhead

theorem digits_zero_cons {n : UInt64} {cs : List Char} (h : Decimal.digits n = '0' :: cs) :
    cs = [] := by
  unfold Decimal.digits at h
  cases hn : n.toNat with
  | zero =>
    rw [hn, Nat.toDigits_zero] at h
    exact (List.cons.inj h).2.symm
  | succ k =>
    rw [hn] at h
    exact absurd (congrArg List.head? h) (head?_toDigits k.succ_pos)

theorem isNumber_digits (n : UInt64) : isNumber (digits n) := by
  obtain ⟨c, cs, hc⟩ := List.exists_cons_of_ne_nil (Decimal.digits_ne_nil n)
  have hall : ∀ b ∈ digits n, isDigit b := fun b hb ↦ isDigit_of_mem_digits hb
  have hdigit : Decimal.isDigit c := Decimal.isDigit_of_mem_digits (by rw [hc]; exact .head _)
  rw [digits, hc, List.map_cons] at hall ⊢
  have hb : isDigit c.toUInt8 := hall _ (.head _)
  have hrest : (cs.map fun c ↦ c.toUInt8).dropWhile isDigit = [] :=
    List.dropWhile_eq_nil_iff.2 fun b hb ↦ hall b (.tail _ hb)
  by_cases hz : c = '0'
  · subst hz
    obtain rfl := digits_zero_cons hc
    decide
  · have hminus : c.toUInt8 ≠ 0x2d := by
      intro h
      rw [h] at hb
      exact absurd hb (by decide)
    have hzero : c.toUInt8 ≠ 0x30 := by
      intro h
      have hn := toNat_toUInt8 hdigit
      rw [h] at hn
      exact hz (Char.toNat_inj.1 hn.symm)
    rw [isNumber, isUnsigned, hb, hrest]
    · rfl
    · exact fun h ↦ hzero h
    · exact fun rest h ↦ hminus (List.cons.inj h).1

end Number

theorem u64?_ofU64 (n : UInt64) : (Value.ofU64 n).u64? = some n := by
  have hchars : (Number.digits n).map (fun b ↦ Char.ofNat b.toNat) = Decimal.digits n := by
    rw [Number.digits, List.map_map]
    refine (List.map_congr_left ?_).trans (List.map_id _)
    intro c hc
    have hdigit := Number.toNat_toUInt8 (Decimal.isDigit_of_mem_digits hc)
    rw [Function.comp_apply, hdigit, Char.ofNat_toNat, id_eq]
  change Decimal.read? ((Number.digits n).map fun b ↦ Char.ofNat b.toNat) = some n
  rw [hchars, Decimal.read?_digits]

end ScriptBreakpoints.Json
