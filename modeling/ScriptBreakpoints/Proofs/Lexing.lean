import Mathlib.Data.List.Chain
import ScriptBreakpoints.Json.Layout
import ScriptBreakpoints.Proofs.Spelling

namespace ScriptBreakpoints.Json

theorem foldlM_cons_some {α β : Type} {f : α → β → Option α} {a a' : α} {b : β}
    (h : f a b = some a') (bs : List β) : (b :: bs).foldlM f a = bs.foldlM f a' := by
  rw [List.foldlM_cons, h, Option.bind_eq_bind, Option.bind_some]

theorem foldlM_append_some {α β : Type} {f : α → β → Option α} {a a' : α} {bs : List β}
    (h : bs.foldlM f a = some a') (cs : List β) : (bs ++ cs).foldlM f a = cs.foldlM f a' := by
  rw [List.foldlM_append, h, Option.bind_eq_bind, Option.bind_some]

namespace Lexer

def separates (b : UInt8) : Bool := !Number.isByte b && !(0x61 ≤ b && b ≤ 0x7a)

structure Stands (l : Lexer) (found : List Token) : Prop where
  finish : l.finish = some found
  step : ∀ b, separates b → l.step b = start found b

theorem stands_between (found : List Token) : Stands ⟨found, .between⟩ found :=
  ⟨rfl, fun _ _ ↦ rfl⟩

theorem stands_word {found : List Token} {word : Bytes} {t : Token}
    (h : keyword? word.reverse = some t) : Stands ⟨found, .word word⟩ (t :: found) := by
  have hf : finish ⟨found, .word word⟩ = some (t :: found) := by simp [finish, h]
  refine ⟨hf, ?_⟩
  intro b hb
  simp only [separates, Bool.and_eq_true, Bool.not_eq_true'] at hb
  refine (if_neg (ne_true_of_eq_false hb.2)).trans ?_
  rw [hf, Option.bind_some]

theorem stands_number {found : List Token} {digits : Bytes} (h : Number.isNumber digits) :
    Stands ⟨found, .number digits.reverse⟩ (.number digits :: found) := by
  have hf : finish ⟨found, .number digits.reverse⟩ = some (.number digits :: found) := by
    simp [finish, h]
  refine ⟨hf, ?_⟩
  intro b hb
  simp only [separates, Bool.and_eq_true, Bool.not_eq_true'] at hb
  refine (if_neg (ne_true_of_eq_false hb.1)).trans ?_
  rw [hf, Option.bind_some]

theorem foldlM_spaces {found : List Token} {bytes : Bytes} (h : ∀ b ∈ bytes, isSpace b) :
    bytes.foldlM step ⟨found, .between⟩ = some ⟨found, .between⟩ := by
  induction bytes with
  | nil => rfl
  | cons b bytes ih =>
    have hstep : step ⟨found, .between⟩ b = some ⟨found, .between⟩ := if_pos (h b (.head _))
    rw [foldlM_cons_some hstep]
    exact ih fun b hb ↦ h b (.tail _ hb)

theorem isSpace_of_mem_newline {depth : Nat} {b : UInt8} (h : b ∈ newline depth) : isSpace b := by
  rcases List.mem_cons.1 h with rfl | h
  · decide
  · rw [List.eq_of_mem_replicate h]
    decide

theorem foldlM_digits {found : List Token} {digits read : Bytes}
    (h : ∀ b ∈ digits, Number.isByte b) :
    digits.foldlM step ⟨found, .number read⟩ = some ⟨found, .number (digits.reverse ++ read)⟩ := by
  induction digits generalizing read with
  | nil => rfl
  | cons b digits ih =>
    have hstep : step ⟨found, .number read⟩ b = some ⟨found, .number (b :: read)⟩ :=
      if_pos (h b (.head _))
    rw [foldlM_cons_some hstep, ih fun b hb ↦ h b (.tail _ hb), List.reverse_cons,
      List.append_assoc, List.singleton_append]

end Lexer

namespace Token

def Sound : Token → Prop
  | number digits => Number.isNumber digits ∧ ∀ b ∈ digits, Number.isByte b
  | string raw => Lexer.Swallows raw
  | _ => True

def isOpenEnded : Token → Bool
  | null | bool _ | number _ => true
  | _ => false

end Token

def Apart (ts : List Token) : Prop := ts.IsChain fun s t ↦ s.isOpenEnded → t.isOpenEnded = false

theorem Number.head_of_isNumber {b : UInt8} {bytes : Bytes} (h : isNumber (b :: bytes)) :
    isDigit b || b = 0x2d := by
  by_cases hb : b = 0x2d
  · simp [hb]
  · rw [isNumber] at h
    swap
    · exact fun rest hc ↦ hb (List.cons.inj hc).1
    by_cases hz : b = 0x30
    · subst hz
      decide
    · rw [isUnsigned] at h
      swap
      · exact fun hc ↦ hz hc
      simp only [Bool.and_eq_true] at h
      simp [h.1]

namespace Lexer

theorem foldlM_openEnded {t : Token} (hs : t.Sound) (ho : t.isOpenEnded) (found : List Token) :
    ∃ l, t.text.foldlM step ⟨found, .between⟩ = some l ∧ l.Stands (t :: found) := by
  cases t with
  | null => exact ⟨_, rfl, stands_word rfl⟩
  | bool b =>
    cases b
    · exact ⟨_, rfl, stands_word rfl⟩
    · exact ⟨_, rfl, stands_word rfl⟩
  | number digits =>
    obtain ⟨hnumber, hbytes⟩ := hs
    cases digits with
    | nil => cases hnumber
    | cons b digits =>
      have hb := Number.head_of_isNumber hnumber
      have hspace : ¬isSpace b := by
        intro h
        simp only [isSpace, Bool.or_eq_true, decide_eq_true_eq] at h
        rcases h with ((rfl | rfl) | rfl) | rfl <;> exact absurd hb (by decide)
      have hstart : start found b = some ⟨found, .number [b]⟩ := (if_neg hspace).trans (if_pos hb)
      refine ⟨_, ?_, stands_number hnumber⟩
      change (b :: digits).foldlM step ⟨found, .between⟩ = _
      rw [foldlM_cons_some hstart, foldlM_digits fun b hb ↦ hbytes b (.tail _ hb),
        List.reverse_cons]
  | _ => cases ho

theorem foldlM_string {raw : Bytes} {l : Lexer} {found : List Token} (hl : l.Stands found)
    (hraw : Swallows raw) :
    (Token.string raw).text.foldlM step l = some ⟨.string raw :: found, .between⟩ := by
  have hopen : l.step 0x22 = some ⟨found, .string []⟩ := hl.step 0x22 (by decide)
  change ((0x22 :: raw) ++ [0x22]).foldlM step l = _
  rw [List.cons_append, foldlM_cons_some hopen, foldlM_append_some (hraw found [])]
  simp [step]

def Reads (bytes : Bytes) (ts : List Token) : Prop :=
  ∀ l found, Stands l found → (∀ t ∈ ts.head?, t.isOpenEnded → l = ⟨found, .between⟩) →
    ∃ l', bytes.foldlM step l = some l' ∧ l'.Stands (ts.reverse ++ found)

namespace Reads

theorem nil : Reads [] [] := fun l _ hl _ ↦ ⟨l, rfl, hl⟩

theorem after_token {t : Token} {ts found : List Token} {bytes : Bytes} (h : Reads bytes ts) :
    ∃ l', bytes.foldlM step ⟨t :: found, .between⟩ = some l' ∧
      l'.Stands ((t :: ts).reverse ++ found) := by
  rw [List.reverse_cons, List.append_assoc, List.singleton_append]
  exact h _ _ (stands_between _) fun _ _ _ ↦ rfl

theorem punctuation {t : Token} {p : UInt8} {spaces : Bytes} (hp : separates p)
    (ht : ∀ found, start found p = some ⟨t :: found, .between⟩) (hspaces : ∀ b ∈ spaces, isSpace b)
    {ts : List Token} {bytes : Bytes} (h : Reads bytes ts) :
    Reads (p :: spaces ++ bytes) (t :: ts) := by
  intro l found hl _
  rw [List.cons_append, foldlM_cons_some ((hl.step p hp).trans (ht found)),
    foldlM_append_some (foldlM_spaces hspaces)]
  exact h.after_token

theorem after_newline {t : Token} {ts : List Token} {bytes : Bytes} (ht : t.isOpenEnded = false)
    (h : Reads bytes (t :: ts)) (depth : Nat) : Reads (newline depth ++ bytes) (t :: ts) := by
  intro l found hl _
  have hfirst : l.step 0x0a = some ⟨found, .between⟩ := hl.step 0x0a (by decide)
  have hline : (newline depth).foldlM step l = some ⟨found, .between⟩ := by
    rw [newline, foldlM_cons_some hfirst]
    exact foldlM_spaces fun b hb ↦ isSpace_of_mem_newline (.tail _ hb)
  rw [foldlM_append_some hline]
  apply h _ _ (stands_between found)
  intro t' ht' ho
  obtain rfl := Option.some.inj ht'
  exact absurd ho (ne_true_of_eq_false ht)

theorem string {raw : Bytes} (hraw : Swallows raw) {ts : List Token} {bytes : Bytes}
    (h : Reads bytes ts) : Reads ((Token.string raw).text ++ bytes) (.string raw :: ts) := by
  intro l found hl _
  rw [foldlM_append_some (foldlM_string hl hraw)]
  exact h.after_token

theorem openEnded {t : Token} {ts : List Token} {bytes : Bytes} (hs : t.Sound) (ho : t.isOpenEnded)
    (hnext : ∀ t' ∈ ts.head?, t'.isOpenEnded = false) (h : Reads bytes ts) :
    Reads (t.text ++ bytes) (t :: ts) := by
  intro l found hl hfirst
  obtain rfl := hfirst t rfl ho
  obtain ⟨l', hr, hl'⟩ := foldlM_openEnded hs ho found
  rw [foldlM_append_some hr, List.reverse_cons, List.append_assoc, List.singleton_append]
  apply h _ _ hl'
  intro t' ht' ho'
  rw [hnext t' ht'] at ho'
  cases ho'

end Reads

theorem reads_pretty {ts : List Token} (hs : ∀ t ∈ ts, t.Sound) (ha : Apart ts) (depth : Nat) :
    Reads (pretty depth ts) ts := by
  have hnone : ∀ b ∈ ([] : Bytes), isSpace b := fun b hb ↦ by cases hb
  have hline : ∀ d, ∀ b ∈ newline d, isSpace b := fun d b hb ↦ isSpace_of_mem_newline hb
  fun_induction pretty depth ts with
  | case1 depth => exact .nil
  | case2 depth ts ih =>
    have hrest := ih (fun t ht ↦ hs t (.tail _ (.tail _ ht))) ha.tail.tail
    exact .punctuation (by decide) (fun _ ↦ rfl) hnone
      (.punctuation (by decide) (fun _ ↦ rfl) hnone hrest)
  | case3 depth ts ih =>
    have hrest := ih (fun t ht ↦ hs t (.tail _ (.tail _ ht))) ha.tail.tail
    exact .punctuation (by decide) (fun _ ↦ rfl) hnone
      (.punctuation (by decide) (fun _ ↦ rfl) hnone hrest)
  | case4 depth ts hne ih =>
    have hrest := ih (fun t ht ↦ hs t (.tail _ ht)) ha.tail
    exact .punctuation (by decide) (fun _ ↦ rfl) (hline _) hrest
  | case5 depth ts hne ih =>
    have hrest := ih (fun t ht ↦ hs t (.tail _ ht)) ha.tail
    exact .punctuation (by decide) (fun _ ↦ rfl) (hline _) hrest
  | case6 depth ts ih =>
    have hrest := ih (fun t ht ↦ hs t (.tail _ ht)) ha.tail
    exact .after_newline rfl (.punctuation (by decide) (fun _ ↦ rfl) hnone hrest) _
  | case7 depth ts ih =>
    have hrest := ih (fun t ht ↦ hs t (.tail _ ht)) ha.tail
    exact .after_newline rfl (.punctuation (by decide) (fun _ ↦ rfl) hnone hrest) _
  | case8 depth ts ih =>
    have hrest := ih (fun t ht ↦ hs t (.tail _ ht)) ha.tail
    exact .punctuation (by decide) (fun _ ↦ rfl) (hline _) hrest
  | case9 depth ts ih =>
    have hrest := ih (fun t ht ↦ hs t (.tail _ ht)) ha.tail
    have hspace : ∀ b ∈ ([0x20] : Bytes), isSpace b := by simp [isSpace]
    exact .punctuation (by decide) (fun _ ↦ rfl) hspace hrest
  | case10 depth t ts _ _ h₁ h₂ h₃ h₄ h₅ h₆ ih =>
    have hrest := ih (fun t ht ↦ hs t (.tail _ ht)) ha.tail
    have ht : t.Sound := hs t (.head _)
    have hnext := (List.isChain_cons.1 ha).1
    cases t with
    | null => exact .openEnded ht rfl (fun t' ht' ↦ hnext t' ht' rfl) hrest
    | bool b => exact .openEnded ht rfl (fun t' ht' ↦ hnext t' ht' rfl) hrest
    | number digits => exact .openEnded ht rfl (fun t' ht' ↦ hnext t' ht' rfl) hrest
    | string raw => exact .string ht hrest
    | openArray => exact (h₁ rfl).elim
    | openObject => exact (h₂ rfl).elim
    | closeArray => exact (h₃ rfl).elim
    | closeObject => exact (h₄ rfl).elim
    | comma => exact (h₅ rfl).elim
    | colon => exact (h₆ rfl).elim

/-- What is written with one item a line is read as the same tokens. -/
theorem tokens_pretty {ts : List Token} (hs : ∀ t ∈ ts, t.Sound) (ha : Apart ts) (depth : Nat) :
    tokens (pretty depth ts) = some ts := by
  obtain ⟨l, hr, hl⟩ := reads_pretty hs ha depth ⟨[], .between⟩ [] (stands_between [])
    fun _ _ _ ↦ rfl
  rw [tokens, hr, Option.bind_eq_bind, Option.bind_some, hl.finish]
  simp

end Lexer

end ScriptBreakpoints.Json
