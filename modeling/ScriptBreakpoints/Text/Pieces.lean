namespace ScriptBreakpoints

/-- What stands between the occurrences of `sep`: one more piece than there are separators. -/
def pieces (sep : Char) : List Char → List (List Char)
  | [] => [[]]
  | c :: cs =>
    if c = sep then [] :: pieces sep cs
    else
      match pieces sep cs with
      | [] => [[c]]
      | p :: ps => (c :: p) :: ps

theorem pieces_ne_nil (sep : Char) (cs : List Char) : pieces sep cs ≠ [] := by
  fun_cases pieces sep cs <;> simp_all

theorem pieces_of_not_mem {sep : Char} {p : List Char} (h : sep ∉ p) : pieces sep p = [p] := by
  induction p with
  | nil => rfl
  | cons c p ih =>
    simp only [List.mem_cons, not_or] at h
    simp [pieces, ih h.2, Ne.symm h.1]

theorem pieces_append {sep : Char} {p : List Char} (h : sep ∉ p) (cs : List Char) :
    pieces sep (p ++ sep :: cs) = p :: pieces sep cs := by
  induction p with
  | nil => simp [pieces]
  | cons c p ih =>
    simp only [List.mem_cons, not_or] at h
    simp [pieces, ih h.2, Ne.symm h.1]

theorem pieces_append_sep (sep : Char) (cs ds : List Char) :
    pieces sep (cs ++ sep :: ds) = pieces sep cs ++ pieces sep ds := by
  induction cs with
  | nil => simp [pieces]
  | cons c cs ih =>
    obtain ⟨p, ps, hp⟩ := List.exists_cons_of_ne_nil (pieces_ne_nil sep cs)
    by_cases h : c = sep <;> simp [pieces, h, ih, hp]

theorem not_mem_of_mem_pieces {sep : Char} {cs p : List Char} (h : p ∈ pieces sep cs) :
    sep ∉ p := by
  induction cs generalizing p with
  | nil => simp_all [pieces]
  | cons c cs ih =>
    obtain ⟨q, qs, hq⟩ := List.exists_cons_of_ne_nil (pieces_ne_nil sep cs)
    by_cases hc : c = sep
    · simp only [pieces, hc, if_true, List.mem_cons] at h
      obtain rfl | hp := h
      · exact List.not_mem_nil
      · exact ih hp
    · simp only [pieces, hc, if_false, hq, List.mem_cons] at h
      rw [hq] at ih
      obtain rfl | hp := h
      · simp [Ne.symm hc, ih List.mem_cons_self]
      · exact ih (List.mem_cons_of_mem _ hp)

theorem intercalate_pieces (sep : Char) (cs : List Char) :
    [sep].intercalate (pieces sep cs) = cs := by
  induction cs with
  | nil => rfl
  | cons c cs ih =>
    by_cases h : c = sep
    · subst h
      obtain ⟨p, ps, hp⟩ := List.exists_cons_of_ne_nil (pieces_ne_nil c cs)
      rw [hp] at ih
      simpa [pieces, hp, List.intercalate] using ih
    · obtain ⟨p, ps, hp⟩ := List.exists_cons_of_ne_nil (pieces_ne_nil sep cs)
      rw [hp] at ih
      cases ps <;> simp_all [pieces, List.intercalate, List.intersperse]

end ScriptBreakpoints
