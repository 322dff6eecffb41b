import ScriptBreakpoints.Proofs.Lexing

namespace ScriptBreakpoints.Json

@[elab_as_elim]
theorem Value.induction {P : Value → Prop} (null : P .null) (bool : ∀ b, P (.bool b))
    (number : ∀ digits, P (.number digits)) (string : ∀ raw, P (.string raw))
    (array : ∀ items, (∀ v ∈ items, P v) → P (.array items))
    (object : ∀ members, (∀ m ∈ members, P m.2) → P (.object members)) : (v : Value) → P v
  | .null => null
  | .bool b => bool b
  | .number digits => number digits
  | .string raw => string raw
  | .array items => array items fun v _ ↦ induction null bool number string array object v
  | .object members => object members fun m _ ↦
    induction null bool number string array object m.2
termination_by v => sizeOf v
decreasing_by
  · have h := List.sizeOf_lt_of_mem ‹v ∈ items›
    simp
    omega
  · have h := List.sizeOf_lt_of_mem ‹m ∈ members›
    have hm : sizeOf m = 1 + sizeOf m.1 + sizeOf m.2 := by cases m; rfl
    simp
    omega

namespace Reader

def Completes (v : Value) : Prop :=
  ∀ stack, v.tokens.foldlM step (.value stack) = some (.after stack v)

variable {stack : List Frame}

theorem foldlM_itemTokens {read : List Value} {v : Value} {items : List Value}
    (hv : Completes v) (h : ∀ w ∈ items, Completes w) :
    (Value.itemTokens (v :: items) ++ [Token.closeArray]).foldlM step
        (.value (.array read :: stack)) =
      some (.after stack (.array (read.reverse ++ v :: items))) := by
  induction items generalizing read v with
  | nil =>
    have hclose : step (.after (.array read :: stack) v) .closeArray =
        some (.after stack (.array (v :: read).reverse)) := rfl
    rw [Value.itemTokens, foldlM_append_some (hv _), foldlM_cons_some hclose, List.reverse_cons]
    rfl
  | cons w items ih =>
    have hcomma : step (.after (.array read :: stack) v) .comma =
        some (.value (.array (v :: read) :: stack)) := rfl
    rw [Value.itemTokens, List.append_assoc, foldlM_append_some (hv _), List.cons_append,
      foldlM_cons_some hcomma, ih (h w (.head _)) fun x hx ↦ h x (.tail _ hx), List.reverse_cons,
      List.append_assoc, List.singleton_append]

theorem foldlM_memberTokens {read : List (Bytes × Value)} {k : Bytes} {v : Value}
    {members : List (Bytes × Value)} (hv : Completes v) (h : ∀ m ∈ members, Completes m.2) :
    (Value.memberTokens ((k, v) :: members) ++ [Token.closeObject]).foldlM step
        (.key stack read) =
      some (.after stack (.object (read.reverse ++ (k, v) :: members))) := by
  have hkey (read : List (Bytes × Value)) (k : Bytes) :
      step (.key stack read) (.string k) = some (.colon stack read k) := rfl
  have hcolon (read : List (Bytes × Value)) (k : Bytes) :
      step (.colon stack read k) .colon = some (.value (.object read k :: stack)) := rfl
  induction members generalizing read k v with
  | nil =>
    have hclose : step (.after (.object read k :: stack) v) .closeObject =
        some (.after stack (.object ((k, v) :: read).reverse)) := rfl
    rw [Value.memberTokens, List.cons_append, List.cons_append, foldlM_cons_some (hkey _ _),
      foldlM_cons_some (hcolon _ _), foldlM_append_some (hv _), foldlM_cons_some hclose,
      List.reverse_cons]
    rfl
  | cons m members ih =>
    obtain ⟨k', w⟩ := m
    have hcomma : step (.after (.object read k :: stack) v) .comma =
        some (.key stack ((k, v) :: read)) := rfl
    rw [Value.memberTokens, List.append_assoc, List.cons_append, List.cons_append,
      foldlM_cons_some (hkey _ _), foldlM_cons_some (hcolon _ _), foldlM_append_some (hv _),
      List.cons_append, foldlM_cons_some hcomma,
      ih (h _ (.head _)) fun x hx ↦ h x (.tail _ hx), List.reverse_cons, List.append_assoc,
      List.singleton_append]

theorem foldlM_itemOrClose (v : Value) (rest : List Token) :
    (v.tokens ++ rest).foldlM step (.itemOrClose stack) =
      (v.tokens ++ rest).foldlM step (.value (.array [] :: stack)) := by
  cases v <;> rfl

theorem itemTokens_cons (v : Value) (items : List Value) :
    ∃ rest, Value.itemTokens (v :: items) = v.tokens ++ rest := by
  cases items with
  | nil => exact ⟨[], (List.append_nil _).symm⟩
  | cons w items => exact ⟨_, rfl⟩

theorem memberTokens_cons (k : Bytes) (v : Value) (members : List (Bytes × Value)) :
    ∃ rest, Value.memberTokens ((k, v) :: members) = .string k :: rest := by
  cases members <;> exact ⟨_, rfl⟩

theorem completes (v : Value) : Completes v := by
  induction v using Value.induction with
  | null => exact fun _ ↦ rfl
  | bool b => exact fun _ ↦ rfl
  | number digits => exact fun _ ↦ rfl
  | string raw => exact fun _ ↦ rfl
  | array items ih =>
    intro stack
    have hopen : step (.value stack) .openArray = some (.itemOrClose stack) := rfl
    rw [Value.tokens, List.cons_append, foldlM_cons_some hopen]
    cases items with
    | nil => rfl
    | cons v items =>
      obtain ⟨rest, hrest⟩ := itemTokens_cons v items
      rw [hrest, List.append_assoc, foldlM_itemOrClose, ← List.append_assoc, ← hrest]
      exact foldlM_itemTokens (ih v (.head _)) fun w hw ↦ ih w (.tail _ hw)
  | object members ih =>
    intro stack
    have hopen : step (.value stack) .openObject = some (.keyOrClose stack) := rfl
    rw [Value.tokens, List.cons_append, foldlM_cons_some hopen]
    cases members with
    | nil => rfl
    | cons m members =>
      obtain ⟨k, v⟩ := m
      obtain ⟨rest, hrest⟩ := memberTokens_cons k v members
      have hkey : step (.keyOrClose stack) (.string k) = some (.colon stack [] k) := rfl
      have hfirst : step (.key stack []) (.string k) = some (.colon stack [] k) := rfl
      rw [hrest, List.cons_append, foldlM_cons_some hkey, ← foldlM_cons_some hfirst,
        ← List.cons_append, ← hrest]
      exact foldlM_memberTokens (ih _ (.head _)) fun w hw ↦ ih w (.tail _ hw)

end Reader

theorem ofTokens?_tokens (v : Value) : Value.ofTokens? v.tokens = some v := by
  rw [Value.ofTokens?, Reader.completes v]

theorem Apart.cons_closed {t : Token} {ts : List Token} (ht : t.isOpenEnded = false)
    (h : Apart ts) : Apart (t :: ts) :=
  List.isChain_cons.2 ⟨fun _ _ ho ↦ absurd ho (ne_true_of_eq_false ht), h⟩

theorem Apart.cons_cons {s t : Token} {ts : List Token} (ht : t.isOpenEnded = false)
    (h : Apart (t :: ts)) : Apart (s :: t :: ts) :=
  List.isChain_cons_cons.2 ⟨fun _ ↦ ht, h⟩

namespace Value

def Ends (ts : List Token) : Prop :=
  ∀ {t rest}, t.isOpenEnded = false → Apart (t :: rest) → Apart (ts ++ t :: rest)

theorem ends_itemTokens {v : Value} {items : List Value} (hv : Ends v.tokens)
    (h : ∀ w ∈ items, Ends w.tokens) : Ends (itemTokens (v :: items)) := by
  induction items generalizing v with
  | nil => exact hv
  | cons w items ih =>
    intro t rest ht hrest
    have hitems := ih (h w (.head _)) (fun x hx ↦ h x (.tail _ hx)) ht hrest
    rw [itemTokens, List.append_assoc]
    exact hv rfl (.cons_closed rfl hitems)

theorem ends_memberTokens {k : Bytes} {v : Value} {members : List (Bytes × Value)}
    (hv : Ends v.tokens) (h : ∀ m ∈ members, Ends m.2.tokens) :
    Ends (memberTokens ((k, v) :: members)) := by
  induction members generalizing k v with
  | nil =>
    intro t rest ht hrest
    exact .cons_closed rfl (.cons_closed rfl (hv ht hrest))
  | cons m members ih =>
    intro t rest ht hrest
    have hmembers := ih (k := m.1) (h m (.head _)) (fun x hx ↦ h x (.tail _ hx)) ht hrest
    rw [memberTokens, List.append_assoc]
    exact .cons_closed rfl (.cons_closed rfl (hv rfl (.cons_closed rfl hmembers)))

theorem ends_tokens (v : Value) : Ends v.tokens := by
  induction v using Value.induction with
  | null => exact .cons_cons
  | bool b => exact .cons_cons
  | number digits => exact .cons_cons
  | string raw => exact .cons_cons
  | array items ih =>
    intro t rest ht hrest
    have hclose : Apart (.closeArray :: t :: rest) := .cons_cons ht hrest
    cases items with
    | nil => exact .cons_closed rfl hclose
    | cons v items =>
      rw [tokens, List.append_assoc]
      have hitems : Ends (itemTokens (v :: items)) :=
        ends_itemTokens (ih v (.head _)) fun w hw ↦ ih w (.tail _ hw)
      exact .cons_closed rfl (hitems rfl hclose)
  | object members ih =>
    intro t rest ht hrest
    have hclose : Apart (.closeObject :: t :: rest) := .cons_cons ht hrest
    cases members with
    | nil => exact .cons_closed rfl hclose
    | cons m members =>
      rw [tokens, List.append_assoc]
      have hmembers : Ends (memberTokens (m :: members)) :=
        ends_memberTokens (ih m (.head _)) fun w hw ↦ ih w (.tail _ hw)
      exact .cons_closed rfl (hmembers rfl hclose)

theorem apart_tokens (v : Value) : Apart v.tokens :=
  (v.ends_tokens (t := .comma) rfl (.singleton _)).left_of_append

def Sound (v : Value) : Prop := ∀ t ∈ v.tokens, t.Sound

theorem sound_ofU64 (n : UInt64) : (ofU64 n).Sound := by
  intro t ht
  obtain rfl := List.mem_singleton.1 ht
  refine ⟨Number.isNumber_digits n, fun b hb ↦ ?_⟩
  have hdigit := Number.isDigit_of_mem_digits hb
  simp [Number.isByte, hdigit]

theorem sound_itemTokens {items : List Value} (h : ∀ v ∈ items, v.Sound) :
    ∀ t ∈ itemTokens items, t.Sound := by
  induction items with
  | nil => exact fun t ht ↦ by cases ht
  | cons v items ih =>
    cases items with
    | nil => exact h v (.head _)
    | cons w items =>
      simp only [itemTokens, List.mem_append, List.mem_cons]
      rintro t (ht | rfl | ht)
      · exact h v (.head _) t ht
      · trivial
      · exact ih (fun x hx ↦ h x (.tail _ hx)) t ht

theorem sound_memberTokens {members : List (Bytes × Value)}
    (h : ∀ m ∈ members, Lexer.Swallows m.1 ∧ m.2.Sound) : ∀ t ∈ memberTokens members, t.Sound := by
  induction members with
  | nil => exact fun t ht ↦ by cases ht
  | cons m members ih =>
    obtain ⟨hkey, hv⟩ := h m (.head _)
    cases members with
    | nil =>
      simp only [memberTokens, List.mem_cons]
      rintro t (rfl | rfl | ht)
      · exact hkey
      · trivial
      · exact hv t ht
    | cons m' members =>
      simp only [memberTokens, List.cons_append, List.mem_append, List.mem_cons]
      rintro t (rfl | rfl | ht | rfl | ht)
      · exact hkey
      · trivial
      · exact hv t ht
      · trivial
      · exact ih (fun x hx ↦ h x (.tail _ hx)) t ht

theorem sound_array {items : List Value} (h : ∀ v ∈ items, v.Sound) : (array items).Sound := by
  intro t ht
  rcases List.mem_append.1 ht with ht | ht
  · rcases List.mem_cons.1 ht with rfl | ht
    · trivial
    · exact sound_itemTokens h t ht
  · obtain rfl := List.mem_singleton.1 ht
    trivial

theorem sound_object {members : List (Bytes × Value)}
    (h : ∀ m ∈ members, Lexer.Swallows m.1 ∧ m.2.Sound) : (object members).Sound := by
  intro t ht
  rcases List.mem_append.1 ht with ht | ht
  · rcases List.mem_cons.1 ht with rfl | ht
    · trivial
    · exact sound_memberTokens h t ht
  · obtain rfl := List.mem_singleton.1 ht
    trivial

end Value

theorem parse?_pretty {v : Value} (h : v.Sound) (depth : Nat) :
    parse? (pretty depth v.tokens) = some v := by
  rw [parse?, Lexer.tokens_pretty h v.apart_tokens, Option.bind_some, ofTokens?_tokens]

end ScriptBreakpoints.Json
