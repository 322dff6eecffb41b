import Mathlib.Data.List.Infix
import Mathlib.Data.List.DropRight
import ScriptBreakpoints.Disk

namespace ScriptBreakpoints

namespace Path

theorem segments_append_slash (a b : String) :
    segments (a ++ "/" ++ b) = segments a ++ segments b := by
  have htext : (a ++ "/" ++ b).toList = a.toList ++ '/' :: b.toList := by simp
  rw [segments, segments, segments, htext, pieces_append_sep, List.map_append]

theorem segments_of_not_mem {s : String} (h : '/' ∉ s.toList) : segments s = [s] := by
  rw [segments, pieces_of_not_mem h, List.map_singleton, String.ofList_toList]

theorem not_mem_of_mem_segments {path s : String} (h : s ∈ segments path) : '/' ∉ s.toList := by
  obtain ⟨piece, hpiece, rfl⟩ := List.mem_map.1 h
  rw [String.toList_ofList]
  exact not_mem_of_mem_pieces hpiece

theorem names_append_slash (a b : String) : names (a ++ "/" ++ b) = names a ++ names b := by
  rw [names, segments_append_slash, List.filter_append]
  rfl

theorem names_empty : names "" = [] := by decide

theorem names_intercalate {ss : List String} (h : ∀ s ∈ ss, '/' ∉ s.toList) :
    names ("/".intercalate ss) = ss.filter isProper := by
  induction ss with
  | nil => exact names_empty
  | cons s ss ih =>
    have hs : names s = [s].filter isProper := by
      rw [names, segments_of_not_mem (h s List.mem_cons_self)]
    cases ss with
    | nil => rw [String.intercalate_singleton, hs]
    | cons s' ss =>
      rw [String.intercalate_cons_cons, names_append_slash, hs,
        ih fun t ht ↦ h t (List.mem_cons_of_mem _ ht), ← List.filter_append, List.singleton_append]

theorem filter_dropWhile_not {α : Type} (p : α → Bool) (l : List α) :
    (l.dropWhile fun x ↦ !p x).filter p = l.filter p := by
  induction l with
  | nil => rfl
  | cons x l ih => cases hx : p x <;> simp [hx, ih]

theorem filter_tail_dropWhile_not {α : Type} (p : α → Bool) (l : List α) :
    (l.dropWhile fun x ↦ !p x).tail.filter p = (l.filter p).tail := by
  induction l with
  | nil => rfl
  | cons x l ih => cases hx : p x <;> simp [hx, ih]

theorem names_parent (path : String) : names (parent path) = (names path).dropLast := by
  rw [parent, names_intercalate]
  · rw [List.filter_reverse, filter_dropWhile_not, filter_tail_dropWhile_not, List.filter_reverse,
      List.tail_reverse, List.reverse_reverse]
    rfl
  · intro s hs
    have htail := (List.dropWhile_suffix _).mem (List.mem_reverse.1 hs)
    have hback := (List.dropWhile_suffix _).mem (List.mem_of_mem_tail htail)
    exact not_mem_of_mem_segments (List.mem_reverse.1 hback)

theorem exists_segments_eq_cons {path : String} (hne : path ≠ "") (hpath : ¬ isAbsolute path) :
    ∃ s ss, segments path = s :: ss ∧ s ≠ "" := by
  cases hchars : path.toList with
  | nil => exact absurd (String.toList_injective hchars) hne
  | cons c cs =>
    have hslash : c ≠ '/' := by
      rintro rfl
      exact hpath (by simp [isAbsolute, hchars])
    obtain ⟨p, ps, hp⟩ := List.exists_cons_of_ne_nil (pieces_ne_nil '/' cs)
    refine ⟨String.ofList (c :: p), ps.map String.ofList, ?_, ?_⟩
    · simp [segments, hchars, pieces, hslash, hp]
    · intro hs
      have hnil := congrArg String.toList hs
      rw [String.toList_ofList] at hnil
      cases hnil

theorem names_join {folder path : String} (hfolder : names folder ≠ [])
    (hpath : ¬ isAbsolute path) :
    names (join folder path) = names folder ++ names path := by
  have hne : folder ≠ "" := by
    rintro rfl
    exact hfolder names_empty
  rw [join, if_neg (by simp [hpath, hne])]
  split_ifs with hslash
  · obtain ⟨cs, hcs⟩ := List.getLast?_eq_some_iff.1 hslash
    obtain ⟨front, rfl⟩ : ∃ front : String, folder = front ++ "/" :=
      ⟨String.ofList cs, String.toList_injective (by simp [hcs])⟩
    have hfront : names (front ++ "/") = names front := by
      simpa [names_empty] using names_append_slash front ""
    rw [hfront, names_append_slash]
  · exact names_append_slash folder path

end Path

namespace Disk

variable {d d' : Disk} {place other here names : List String} {path : String} {bytes : Bytes}

theorem node?_insert (hplace : place ≠ []) (node : Node) :
    (⟨d.nodes.insert place node⟩ : Disk).node? other =
      if other = place then some node else d.node? other := by
  by_cases h : other = place
  · simp [node?, h, hplace]
  · have hcompare : compare place other ≠ .eq := fun heq ↦ h (Std.compare_eq_iff_eq.1 heq).symm
    simp [node?, h, Std.ExtTreeMap.getElem?_insert, hcompare]

def KeepsFolders (d d' : Disk) : Prop :=
  ∀ place, d.node? place = some .folder → d'.node? place = some .folder

def Grows (d d' : Disk) : Prop :=
  ∀ place, d'.node? place = d.node? place ∨
    d.node? place = none ∧ d'.node? place = some .folder

theorem Grows.refl (d : Disk) : Grows d d := fun _ ↦ .inl rfl

theorem Grows.trans {d'' : Disk} (h : Grows d d') (h' : Grows d' d'') : Grows d d'' := by
  intro place
  rcases h' place with heq' | ⟨hnone, hfolder⟩
  · rw [heq']
    exact h place
  · rcases h place with heq | ⟨_, hfolder'⟩
    · exact .inr ⟨heq ▸ hnone, hfolder⟩
    · rw [hnone] at hfolder'
      cases hfolder'

theorem Grows.node? {node : Node} (h : Grows d d') (hnode : d.node? place = some node) :
    d'.node? place = some node := by
  rcases h place with heq | ⟨hnone, _⟩
  · rw [heq, hnode]
  · rw [hnode] at hnone
    cases hnone

theorem Grows.keepsFolders (h : Grows d d') : KeepsFolders d d' := fun _ hfolder ↦ h.node? hfolder

theorem KeepsFolders.trans {d'' : Disk} (h : KeepsFolders d d') (h' : KeepsFolders d' d'') :
    KeepsFolders d d'' :=
  fun place hfolder ↦ h' place (h place hfolder)

theorem follow_append (d : Disk) (here names more : List String) :
    d.follow here (names ++ more) = (d.follow here names).bind fun there ↦ d.follow there more := by
  fun_induction d.follow here names with
  | case1 => rfl
  | case2 here names ih => rw [List.cons_append, follow, if_pos rfl, ih]
  | case3 here name names hup hlong => simp [follow, hup, hlong, Except.bind]
  | case4 here name names hup hlong hnode => simp [follow, hup, hlong, hnode, Except.bind]
  | case5 here name names hup hlong content hnode => simp [follow, hup, hlong, hnode, Except.bind]
  | case6 here name names hup hlong hnode ih => simp [follow, hup, hlong, hnode, ih]

/-- A way that does not go up leads down. -/
theorem eq_append_of_follow (hup : ".." ∉ names) (h : d.follow here names = .ok place) :
    place = here ++ names := by
  fun_induction d.follow here names with
  | case1 => simp_all
  | case2 here names ih => simp at hup
  | case3 => cases h
  | case4 => cases h
  | case5 => cases h
  | case6 here name names _ _ _ ih => simp_all

theorem KeepsFolders.follow (hkeep : KeepsFolders d d') (h : d.follow here names = .ok place) :
    d'.follow here names = .ok place := by
  fun_induction d.follow here names with
  | case1 => exact h
  | case2 here names ih => simpa [Disk.follow] using ih h
  | case3 => cases h
  | case4 => cases h
  | case5 => cases h
  | case6 here name names hup hlong hnode ih =>
    simpa [Disk.follow, hup, hlong, hkeep _ hnode] using ih h

/-- A way down is decided by what stands on it. -/
theorem follow_congr (hup : ".." ∉ names) (h : ∀ way, way ≠ [] → way <+: names →
    d'.node? (here ++ way) = d.node? (here ++ way)) :
    d'.follow here names = d.follow here names := by
  induction names generalizing here with
  | nil => rfl
  | cons name names ih =>
    have hname : name ≠ ".." := (List.ne_of_not_mem_cons hup).symm
    have hnode : d'.node? (here ++ [name]) = d.node? (here ++ [name]) :=
      h [name] (by simp) (by simp)
    have hrest : d'.follow (here ++ [name]) names = d.follow (here ++ [name]) names := by
      apply ih (List.not_mem_of_not_mem_cons hup)
      intro way _ hway
      simpa using h (name :: way) (by simp) (by simpa using hway)
    simp only [follow, hname, if_false, hnode, hrest]

section Refusals

variable {α β : Type}

theorem ok_bind (a : α) (f : α → Except Refusal β) : (Except.ok a >>= f) = f a := rfl

theorem error_bind (e : Refusal) (f : α → Except Refusal β) : (.error e >>= f) = .error e := rfl

theorem throw_eq (e : Refusal) : (throw e : Except Refusal α) = .error e := rfl

theorem pure_eq (a : α) : (pure a : Except Refusal α) = .ok a := rfl

end Refusals

/-- A file has a place if its name is possible and the folder that it lies in is there. -/
theorem placeOf_eq_ok : d.placeOf path = .ok place ↔ Path.isPossible path = true ∧
    ∃ front name folder, Path.names path = front ++ [name] ∧ d.follow [] front = .ok folder ∧
      name ≠ ".." ∧ Path.isTooLong name = false ∧ place = folder ++ [name] := by
  cases hpossible : Path.isPossible path with
  | false => simp [placeOf, hpossible, throw_eq, error_bind]
  | true =>
    obtain hnames | ⟨front, name, hnames⟩ := List.eq_nil_or_concat' (Path.names path)
    · simp [placeOf, hpossible, hnames]
    · simp only [placeOf, hpossible, hnames, List.getLast?_concat, List.dropLast_concat]
      cases hfollow : d.follow [] front with
      | error e => simp [hfollow, error_bind]
      | ok folder =>
        by_cases hup : name = ".."
        · simp [hup, ok_bind, throw_eq]
        · cases hlong : Path.isTooLong name
          · simpa [hup, hlong, hfollow, ok_bind, pure_eq] using eq_comm
          · simp [hup, hlong, ok_bind, throw_eq]

theorem ne_nil_of_placeOf (h : d.placeOf path = .ok place) : place ≠ [] := by
  obtain ⟨_, _, _, _, _, _, _, _, rfl⟩ := placeOf_eq_ok.1 h
  simp

theorem KeepsFolders.placeOf (hkeep : KeepsFolders d d') (h : d.placeOf path = .ok place) :
    d'.placeOf path = .ok place := by
  obtain ⟨hpossible, front, name, folder, hnames, hfollow, hname⟩ := placeOf_eq_ok.1 h
  exact placeOf_eq_ok.2 ⟨hpossible, front, name, folder, hnames, hkeep.follow hfollow, hname⟩

theorem read_eq_ok : d.read path = .ok bytes ↔ ∃ place, d.placeOf path = .ok place ∧
    d.node? place = some (.file bytes) ∧ Path.endsInFolder path = false := by
  cases hplace : d.placeOf path with
  | error e => simp [read, hplace, error_bind]
  | ok place =>
    simp only [read, hplace, ok_bind]
    rcases hnode : d.node? place with _ | _ | content
    · simp [hnode]
    · simp [hnode]
    · cases hends : Path.endsInFolder path <;> simp [hnode, pure_eq]

theorem write_eq_ok : d.write path bytes = .ok d' ↔ ∃ place, d.placeOf path = .ok place ∧
    Path.endsInFolder path = false ∧ d.node? place ≠ some .folder ∧
      d' = ⟨d.nodes.insert place (.file bytes)⟩ := by
  cases hplace : d.placeOf path with
  | error e => simp [write, hplace, error_bind]
  | ok place =>
    simp only [write, hplace, ok_bind]
    cases hends : Path.endsInFolder path
    · rcases hnode : d.node? place with _ | _ | content <;> simp [hnode, pure_eq, eq_comm]
    · simp [throw_eq, error_bind]

/-- A file is written where there was none, or over the file that was there, and nowhere else. -/
theorem write_spec (h : d.write path bytes = .ok d') : ∃ place, d.placeOf path = .ok place ∧
    Path.endsInFolder path = false ∧ d.node? place ≠ some .folder ∧
      ∀ other, d'.node? other = if other = place then some (.file bytes) else d.node? other := by
  obtain ⟨place, hplace, hends, hnode, rfl⟩ := write_eq_ok.1 h
  exact ⟨place, hplace, hends, hnode, fun _ ↦ node?_insert (ne_nil_of_placeOf hplace) _⟩

theorem keepsFolders_write (h : d.write path bytes = .ok d') : KeepsFolders d d' := by
  obtain ⟨place, _, _, hnode, hnodes⟩ := write_spec h
  intro other hfolder
  have hne : other ≠ place := by
    rintro rfl
    exact hnode hfolder
  rw [hnodes, if_neg hne, hfolder]

theorem read_write (h : d.write path bytes = .ok d') : d'.read path = .ok bytes := by
  obtain ⟨place, hplace, hends, _, hnodes⟩ := write_spec h
  refine read_eq_ok.2 ⟨place, (keepsFolders_write h).placeOf hplace, ?_, hends⟩
  rw [hnodes, if_pos rfl]

theorem KeepsFolders.read (hkeep : KeepsFolders d d') (hplace : d.placeOf path = .ok place)
    (hnode : d'.node? place = d.node? place) (h : d.read path = .ok bytes) :
    d'.read path = .ok bytes := by
  obtain ⟨place', hplace', hfile, hends⟩ := read_eq_ok.1 h
  obtain rfl : place' = place := Except.ok.inj (hplace'.symm.trans hplace)
  exact read_eq_ok.2 ⟨place', hkeep.placeOf hplace, hnode.trans hfile, hends⟩

theorem placeOf_congr
    (h : d'.follow [] (Path.names path).dropLast = d.follow [] (Path.names path).dropLast) :
    d'.placeOf path = d.placeOf path := by
  simp only [placeOf, h]

theorem read_congr (hplace : d'.placeOf path = d.placeOf path)
    (hnode : ∀ place, d.placeOf path = .ok place → d'.node? place = d.node? place) :
    d'.read path = d.read path := by
  rw [read, read, hplace]
  cases h : d.placeOf path with
  | error e => rfl
  | ok place => simp only [ok_bind, hnode place h]

theorem write_congr (bytes : Bytes) (hplace : d'.placeOf path = d.placeOf path)
    (hnode : ∀ place, d.placeOf path = .ok place → d'.node? place = d.node? place) :
    (∃ e, d'.write path bytes = .error e ∧ d.write path bytes = .error e) ∨
      ∃ place, place ≠ [] ∧ d'.write path bytes = .ok ⟨d'.nodes.insert place (.file bytes)⟩ ∧
        d.write path bytes = .ok ⟨d.nodes.insert place (.file bytes)⟩ := by
  cases h : d.placeOf path with
  | error e => exact .inl ⟨e, by rw [write, hplace, h, error_bind], by rw [write, h, error_bind]⟩
  | ok place =>
    simp only [write, hplace, h, ok_bind, hnode place h]
    split
    · exact .inl ⟨.other, rfl, rfl⟩
    · split
      · exact .inl ⟨.other, rfl, rfl⟩
      · exact .inr ⟨place, ne_nil_of_placeOf h, rfl, rfl⟩

theorem grows_makeFolders (d : Disk) (here names : List String) :
    Grows d (d.makeFolders here names).1 := by
  fun_induction d.makeFolders here names with
  | case1 => exact .refl _
  | case2 d here names ih => exact ih
  | case3 => exact .refl _
  | case4 d here name names _ _ hnode ih =>
    refine .trans (fun place ↦ ?_) ih
    rw [node?_insert (by simp)]
    split_ifs with h
    · exact .inr ⟨h ▸ hnode, rfl⟩
    · exact .inl rfl
  | case5 => exact .refl _
  | case6 d here name names _ _ _ ih => exact ih

theorem makeFolders_append_of_follow {there : List String} (h : d.follow here names = .ok there)
    (more : List String) : d.makeFolders here (names ++ more) = d.makeFolders there more := by
  fun_induction d.follow here names with
  | case1 => simp_all
  | case2 here names ih => simpa [makeFolders] using ih h
  | case3 => cases h
  | case4 => cases h
  | case5 => cases h
  | case6 here name names hup hlong hnode ih => simpa [makeFolders, hup, hlong, hnode] using ih h

/-- The folders that are made lie on the way. -/
theorem prefix_of_makeFolders_ne (hup : ".." ∉ names)
    (h : (d.makeFolders here names).1.node? place ≠ d.node? place) :
    ∃ made, made ≠ [] ∧ made <+: names ∧ place = here ++ made := by
  fun_induction d.makeFolders here names with
  | case1 => exact absurd rfl h
  | case2 d here names ih => simp at hup
  | case3 => exact absurd rfl h
  | case4 d here name names _ _ hnode ih =>
    by_cases hplace : place = here ++ [name]
    · exact ⟨[name], by simp, by simp, hplace⟩
    · obtain ⟨made, _, hprefix, rfl⟩ := ih (List.not_mem_of_not_mem_cons hup)
        (by rwa [node?_insert (by simp), if_neg hplace])
      exact ⟨name :: made, by simp, by simpa using hprefix, by simp⟩
  | case5 => exact absurd rfl h
  | case6 d here name names _ _ _ ih =>
    obtain ⟨made, _, hprefix, rfl⟩ := ih (List.not_mem_of_not_mem_cons hup) h
    exact ⟨name :: made, by simp, by simpa using hprefix, by simp⟩

theorem makeFolders_congr (hup : ".." ∉ names) (h : ∀ way, way ≠ [] → way <+: names →
    d'.node? (here ++ way) = d.node? (here ++ way)) :
    (d'.makeFolders here names).2 = (d.makeFolders here names).2 ∧
      ∀ place, d'.node? place = d.node? place →
        (d'.makeFolders here names).1.node? place = (d.makeFolders here names).1.node? place := by
  induction names generalizing here d d' with
  | nil => exact ⟨rfl, fun _ hplace ↦ hplace⟩
  | cons name names ih =>
    have hname : name ≠ ".." := (List.ne_of_not_mem_cons hup).symm
    have hnode : d'.node? (here ++ [name]) = d.node? (here ++ [name]) :=
      h [name] (by simp) (by simp)
    have hway : ∀ way, way ≠ [] → way <+: names →
        d'.node? (here ++ [name] ++ way) = d.node? (here ++ [name] ++ way) := fun way _ hway ↦ by
      simpa using h (name :: way) (by simp) (by simpa using hway)
    simp only [makeFolders, hname, if_false, hnode]
    split
    · exact ⟨rfl, fun _ hplace ↦ hplace⟩
    · split
      · have hinsert : ∀ place, d'.node? place = d.node? place →
            (⟨d'.nodes.insert (here ++ [name]) .folder⟩ : Disk).node? place =
              (⟨d.nodes.insert (here ++ [name]) .folder⟩ : Disk).node? place := by
          intro place hplace
          rw [node?_insert (by simp), node?_insert (by simp), hplace]
        obtain ⟨hflag, hplaces⟩ := ih (List.not_mem_of_not_mem_cons hup)
          fun way hne hprefix ↦ hinsert _ (hway way hne hprefix)
        exact ⟨hflag, fun place hplace ↦ hplaces place (hinsert place hplace)⟩
      · exact ⟨rfl, fun _ hplace ↦ hplace⟩
      · exact ih (List.not_mem_of_not_mem_cons hup) hway

theorem makeParents_eq (d : Disk) (path : String) : d.makeParents path =
    if Path.isPossible (Path.parent path) then d.makeFolders [] (Path.names path).dropLast
    else (d, false) := by
  rw [makeParents, Path.names_parent]

theorem grows_makeParents (d : Disk) (path : String) : Grows d (d.makeParents path).1 := by
  rw [makeParents_eq]
  split_ifs
  · exact grows_makeFolders d _ _
  · exact .refl d

end Disk

end ScriptBreakpoints
