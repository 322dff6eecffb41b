import ScriptBreakpoints.Archive.Folder
import ScriptBreakpoints.Proofs.Walking

namespace ScriptBreakpoints

namespace FolderArchive

variable {a a' : FolderArchive} {place other : List String} {file : String} {bytes : Bytes}

theorem isInside_eq_false_iff : isInside file = false ↔ file = "" ∨ Path.isAbsolute file = true ∨
    (Path.segments file).head? = some "." ∨ ".." ∈ Path.segments file := by
  simp [isInside, Path.startsAtDot, Classical.or_iff_not_imp_left]

theorem names_ne_nil (h : isInside file = true) : Path.names file ≠ [] := by
  rw [← Bool.not_eq_false, isInside_eq_false_iff] at h
  push Not at h
  obtain ⟨hempty, habsolute, hdot, _⟩ := h
  obtain ⟨s, ss, hsegments, hs⟩ := Path.exists_segments_eq_cons hempty habsolute
  rw [hsegments, List.head?_cons, Ne, Option.some_inj] at hdot
  simp [Path.names, hsegments, Path.isProper, hs, hdot]

theorem up_not_mem_names (h : isInside file = true) : ".." ∉ Path.names file := by
  intro hmem
  have hout := isInside_eq_false_iff.2 (.inr (.inr (.inr (List.mem_of_mem_filter hmem))))
  rw [h] at hout
  cases hout

theorem names_join (hroot : Path.names a.root ≠ []) (h : isInside file = true) :
    Path.names (Path.join a.root file) = Path.names a.root ++ Path.names file := by
  apply Path.names_join hroot
  intro habsolute
  rw [isInside_eq_false_iff.2 (.inr (.inl habsolute))] at h
  cases h

theorem dropLast_names_join (hroot : Path.names a.root ≠ []) (h : isInside file = true) :
    (Path.names (Path.join a.root file)).dropLast =
      Path.names a.root ++ (Path.names file).dropLast := by
  rw [names_join hroot h, List.dropLast_append_of_ne_nil (names_ne_nil h)]

theorem up_not_mem_way {name : String} (hname : name ≠ "..") (h : isInside file = true) :
    ".." ∉ name :: (Path.names file).dropLast :=
  List.not_mem_cons_of_ne_of_not_mem (Ne.symm hname) fun hmem ↦
    up_not_mem_names h (List.mem_of_mem_dropLast hmem)

def Lies (a : FolderArchive) (place : List String) : Prop :=
  ∃ front name folder, Path.names a.root = front ++ [name] ∧ name ≠ ".." ∧
    a.disk.follow [] front = .ok folder ∧ place = folder ++ [name]

namespace Lies

theorem of_placeOf (h : a.disk.placeOf a.root = .ok place) : a.Lies place := by
  obtain ⟨_, front, name, folder, hnames, hfollow, hname, _, hplace⟩ := Disk.placeOf_eq_ok.1 h
  exact ⟨front, name, folder, hnames, hname, hfollow, hplace⟩

theorem keeps (h : a.Lies place) (hroot : a'.root = a.root)
    (hkeep : a.disk.KeepsFolders a'.disk) : a'.Lies place := by
  obtain ⟨front, name, folder, hnames, hname, hfollow, hplace⟩ := h
  exact ⟨front, name, folder, hroot ▸ hnames, hname, hkeep.follow hfollow, hplace⟩

theorem names_root_ne_nil (h : a.Lies place) : Path.names a.root ≠ [] := by
  obtain ⟨_, _, _, hnames, _⟩ := h
  simp [hnames]

/-- Every way into the archive starts at the folder around it and leads on through its place. -/
theorem descends (h : a.Lies place) : ∃ folder name, place = folder ++ [name] ∧ name ≠ ".." ∧
    ∀ down, a.disk.follow [] (Path.names a.root ++ down) = a.disk.follow folder (name :: down) ∧
      a.disk.makeFolders [] (Path.names a.root ++ down) =
        a.disk.makeFolders folder (name :: down) := by
  obtain ⟨front, name, folder, hnames, hname, hfollow, hplace⟩ := h
  refine ⟨folder, name, hplace, hname, fun down ↦ ?_⟩
  rw [hnames, List.append_assoc, List.singleton_append, Disk.follow_append, hfollow,
    Disk.makeFolders_append_of_follow hfollow]
  exact ⟨rfl, rfl⟩

theorem placeOf_join (h : a.Lies place) (hin : isInside file = true)
    (hplace : a.disk.placeOf (Path.join a.root file) = .ok other) :
    other = place ++ Path.names file := by
  obtain ⟨folder, name, rfl, hname, hdescends⟩ := h.descends
  obtain ⟨_, way, last, there, hjoin, hway, _, _, rfl⟩ := Disk.placeOf_eq_ok.1 hplace
  have hlast : (Path.names file).getLast? = some last := by
    have hends := congrArg List.getLast? hjoin
    rwa [names_join h.names_root_ne_nil hin, List.getLast?_append_of_ne_nil _ (names_ne_nil hin),
      List.getLast?_concat] at hends
  have hfront := congrArg List.dropLast hjoin
  rw [dropLast_names_join h.names_root_ne_nil hin, List.dropLast_concat] at hfront
  rw [← hfront, (hdescends _).1] at hway
  rw [Disk.eq_append_of_follow (up_not_mem_way hname hin) hway]
  nth_rewrite 2 [← List.dropLast_append_getLast? last hlast]
  simp

theorem placeOf_keeps {disk : Disk} (h : a.Lies place) (hkeep : a.disk.KeepsFolders disk)
    (hin : isInside file = true) (hplace : disk.placeOf (Path.join a.root file) = .ok other) :
    other = place ++ Path.names file := by
  have hlies : Lies { a with disk } place := h.keeps rfl hkeep
  exact hlies.placeOf_join hin hplace

theorem prefix_of_makeParents_ne (h : a.Lies place) (hin : isInside file = true)
    (hother : (a.disk.makeParents (Path.join a.root file)).1.node? other ≠ a.disk.node? other) :
    place <+: other := by
  obtain ⟨folder, name, rfl, hname, hdescends⟩ := h.descends
  rw [Disk.makeParents_eq, dropLast_names_join h.names_root_ne_nil hin] at hother
  split_ifs at hother
  · rw [(hdescends _).2] at hother
    obtain ⟨made, hne, hprefix, rfl⟩ :=
      Disk.prefix_of_makeFolders_ne (up_not_mem_way hname hin) hother
    obtain ⟨first, rest, rfl⟩ := List.exists_cons_of_ne_nil hne
    obtain ⟨rfl, _⟩ := List.cons_prefix_cons.1 hprefix
    simp
  · exact absurd rfl hother

end Lies

/-- A write makes folders on its way, and then it is refused or the file is written. -/
theorem write_cases (h : a.Lies place) (hin : isInside file = true) (bytes : Bytes) :
    ∃ made : Disk, a.disk.Grows made ∧
      (∀ other, ¬ place <+: other → made.node? other = a.disk.node? other) ∧
        (a.write file bytes = (.error .inaccessible, { a with disk := made }) ∨
          ∃ disk, made.write (Path.join a.root file) bytes = .ok disk ∧
            a.write file bytes = (.ok (), { a with disk })) := by
  have hgrows := Disk.grows_makeParents a.disk (Path.join a.root file)
  have houtside : ∀ other, ¬ place <+: other →
      (a.disk.makeParents (Path.join a.root file)).1.node? other = a.disk.node? other := by
    intro other hother
    by_contra hne
    exact hother (h.prefix_of_makeParents_ne hin hne)
  simp only [write, path, if_pos hin]
  generalize a.disk.makeParents (Path.join a.root file) = result at hgrows houtside ⊢
  obtain ⟨made, _ | _⟩ := result <;> refine ⟨made, hgrows, houtside, ?_⟩
  · exact .inl rfl
  · dsimp only
    cases hwrite : made.write (Path.join a.root file) bytes with
    | error e => exact .inl rfl
    | ok disk => exact .inr ⟨disk, rfl, rfl⟩

theorem path_of_not_isInside (hout : isInside file = false) : a.path file =
    .error (.corrupt file "not a relative path inside the archive") := by
  rw [path, if_neg (by simp [hout])]

theorem read_of_not_isInside (hout : isInside file = false) : a.read file =
    .error (.corrupt file "not a relative path inside the archive") := by
  rw [read, path_of_not_isInside hout]
  rfl

theorem write_of_not_isInside (hout : isInside file = false) : a.write file bytes =
    (.error (.corrupt file "not a relative path inside the archive"), a) := by
  rw [write, path_of_not_isInside hout]

theorem read_of_isInside (hin : isInside file = true) : a.read file =
    match a.disk.read (Path.join a.root file) with
    | .ok bytes => .ok bytes
    | .error .missing => .error (.missing file)
    | .error .other => .error .inaccessible := by
  rw [read, path, if_pos hin]
  rfl

theorem not_corrupt_of_read (hin : isInside file = true) {name reason : String} :
    a.read file ≠ .error (.corrupt name reason) := by
  rw [read_of_isInside hin]
  split <;> simp

theorem read_eq_ok : a.read file = .ok bytes ↔
    isInside file = true ∧ a.disk.read (Path.join a.root file) = .ok bytes := by
  cases hin : isInside file with
  | false => simp [read_of_not_isInside hin]
  | true =>
    rw [read_of_isInside hin]
    split <;> simp_all

/-- Two archives with the same folder and the same nodes in it, wherever else they differ. -/
structure Alike (place : List String) (a a' : FolderArchive) : Prop where
  lies : a.Lies place
  lies' : a'.Lies place
  root : a'.root = a.root
  node? : ∀ other, place <+: other → a'.disk.node? other = a.disk.node? other

namespace Alike

theorem makeFolders_join (h : Alike place a a') (hin : isInside file = true) :
    let way := (Path.names (Path.join a.root file)).dropLast
    a'.disk.follow [] way = a.disk.follow [] way ∧
      (a'.disk.makeFolders [] way).2 = (a.disk.makeFolders [] way).2 ∧
        ∀ other, a'.disk.node? other = a.disk.node? other →
          (a'.disk.makeFolders [] way).1.node? other =
            (a.disk.makeFolders [] way).1.node? other := by
  intro way
  obtain ⟨folder, name, hplace, hname, hdescends⟩ := h.lies.descends
  obtain ⟨folder', name', hplace', _, hdescends'⟩ := h.lies'.descends
  obtain ⟨rfl, hlast⟩ := List.append_inj' (hplace.symm.trans hplace') rfl
  obtain rfl := List.singleton_inj.1 hlast
  have hdown : ".." ∉ name :: (Path.names file).dropLast := up_not_mem_way hname hin
  have hnode : ∀ steps, steps ≠ [] → steps <+: name :: (Path.names file).dropLast →
      a'.disk.node? (folder ++ steps) = a.disk.node? (folder ++ steps) := by
    intro steps hne hsteps
    obtain ⟨first, rest, rfl⟩ := List.exists_cons_of_ne_nil hne
    obtain ⟨rfl, _⟩ := List.cons_prefix_cons.1 hsteps
    apply h.node?
    rw [hplace]
    simp
  have hway : way = Path.names a.root ++ (Path.names file).dropLast :=
    dropLast_names_join h.lies.names_root_ne_nil hin
  have hways := hdescends (Path.names file).dropLast
  have hways' := hdescends' (Path.names file).dropLast
  rw [h.root] at hways'
  rw [hway, hways.1, hways.2, hways'.1, hways'.2]
  exact ⟨Disk.follow_congr hdown hnode, Disk.makeFolders_congr hdown hnode⟩

theorem placeOf_join (h : Alike place a a') (hin : isInside file = true) :
    a'.disk.placeOf (Path.join a.root file) = a.disk.placeOf (Path.join a.root file) :=
  Disk.placeOf_congr (h.makeFolders_join hin).1

theorem node?_placeOf (h : Alike place a a') (hin : isInside file = true) (there : List String)
    (hthere : a.disk.placeOf (Path.join a.root file) = .ok there) :
    a'.disk.node? there = a.disk.node? there := by
  apply h.node?
  rw [h.lies.placeOf_join hin hthere]
  exact List.prefix_append _ _

theorem read (h : Alike place a a') (file : String) : a'.read file = a.read file := by
  cases hin : isInside file with
  | false => rw [read_of_not_isInside hin, read_of_not_isInside hin]
  | true =>
    have hread := Disk.read_congr (h.placeOf_join hin) (h.node?_placeOf hin)
    rw [read_of_isInside hin, read_of_isInside hin, h.root, hread]

theorem makeParents (h : Alike place a a') (hin : isInside file = true) :
    (a'.disk.makeParents (Path.join a.root file)).2 =
        (a.disk.makeParents (Path.join a.root file)).2 ∧
      ∀ other, a'.disk.node? other = a.disk.node? other →
        (a'.disk.makeParents (Path.join a.root file)).1.node? other =
          (a.disk.makeParents (Path.join a.root file)).1.node? other := by
  rw [Disk.makeParents_eq, Disk.makeParents_eq]
  split_ifs
  · exact (h.makeFolders_join hin).2
  · exact ⟨rfl, fun _ hother ↦ hother⟩

theorem keeps (h : Alike place a a') {disk disk' : Disk} (hkeep : a.disk.KeepsFolders disk)
    (hkeep' : a'.disk.KeepsFolders disk')
    (hnode : ∀ other, a'.disk.node? other = a.disk.node? other →
      disk'.node? other = disk.node? other) :
    Alike place { a with disk } { a' with disk := disk' } :=
  ⟨h.lies.keeps rfl hkeep, h.lies'.keeps rfl hkeep', h.root,
    fun other hother ↦ hnode other (h.node? other hother)⟩

theorem write (h : Alike place a a') (file : String) (bytes : Bytes) :
    (a'.write file bytes).1 = (a.write file bytes).1 ∧
      Alike place (a.write file bytes).2 (a'.write file bytes).2 := by
  cases hin : isInside file with
  | false =>
    rw [write_of_not_isInside hin, write_of_not_isInside hin]
    exact ⟨rfl, h⟩
  | true =>
    have hgrows := Disk.grows_makeParents a.disk (Path.join a.root file)
    have hgrows' := Disk.grows_makeParents a'.disk (Path.join a.root file)
    have hmake := h.makeParents hin
    simp only [FolderArchive.write, path, if_pos hin, h.root]
    generalize a.disk.makeParents (Path.join a.root file) = result at hgrows hmake ⊢
    generalize a'.disk.makeParents (Path.join a.root file) = result' at hgrows' hmake ⊢
    obtain ⟨made, flag⟩ := result
    obtain ⟨made', flag'⟩ := result'
    obtain ⟨rfl, hnode⟩ := hmake
    have hmade := h.keeps hgrows.keepsFolders hgrows'.keepsFolders hnode
    cases flag' with
    | false => exact ⟨rfl, by simpa [h.root] using hmade⟩
    | true =>
      dsimp only
      obtain ⟨e, hwrite', hwrite⟩ | ⟨there, hthere, hwrite', hwrite⟩ :=
        Disk.write_congr bytes (hmade.placeOf_join hin) (hmade.node?_placeOf hin)
      · rw [hwrite', hwrite]
        exact ⟨rfl, by simpa [h.root] using hmade⟩
      · rw [hwrite', hwrite]
        refine ⟨rfl, ?_⟩
        have hwritten := hmade.keeps (Disk.keepsFolders_write hwrite)
          (Disk.keepsFolders_write hwrite') fun other hother ↦ by
            rw [Disk.node?_insert hthere, Disk.node?_insert hthere, hother]
        simpa [h.root] using hwritten

end Alike

end FolderArchive

inductive Access
  | read (file : String)
  | write (file : String) (bytes : Bytes)

namespace Access

open FolderArchive

def file : Access → String
  | read file => file
  | write file _ => file

def answer : Access → FolderArchive → Except StorageFault (Option Bytes)
  | read file, a => (Archive.read file a).1.map some
  | write file bytes, a => (Archive.write file bytes a).1.map fun _ ↦ none

def after : Access → FolderArchive → FolderArchive
  | read file, a => (Archive.read file a).2
  | write file bytes, a => (Archive.write file bytes a).2

def written : Access → FolderArchive → List (List String)
  | read _, _ => []
  | write file bytes, a =>
    match (Archive.write file bytes a).1 with
    | .ok () => [Path.names file]
    | .error _ => []

variable {acc : Access} {a a' : FolderArchive} {place other : List String} {name : String}
  {bytes : Bytes}

theorem answer_read (name : String) (a : FolderArchive) :
    (Access.read name).answer a = (a.read name).map some :=
  rfl

theorem answer_write (name : String) (bytes : Bytes) (a : FolderArchive) :
    (Access.write name bytes).answer a = (a.write name bytes).1.map fun _ ↦ none :=
  rfl

theorem after_write (name : String) (bytes : Bytes) (a : FolderArchive) :
    (Access.write name bytes).after a = (a.write name bytes).2 :=
  rfl

theorem after_of_not_isInside (hout : isInside acc.file = false) : acc.after a = a := by
  cases acc with
  | read name => rfl
  | write name bytes =>
    rw [file] at hout
    rw [after_write, write_of_not_isInside hout]

/-- A call is refused as corrupt just for its name. -/
theorem corrupt_iff (acc : Access) (h : a.Lies place) :
    (∃ name reason, acc.answer a = .error (.corrupt name reason)) ↔ isInside acc.file = false := by
  cases hin : isInside acc.file with
  | false =>
    refine iff_of_true ⟨acc.file, "not a relative path inside the archive", ?_⟩ rfl
    cases acc with
    | read name =>
      rw [file] at hin
      rw [answer_read, read_of_not_isInside hin]
      rfl
    | write name bytes =>
      rw [file] at hin
      rw [answer_write, write_of_not_isInside hin]
      rfl
  | true =>
    refine iff_of_false ?_ Bool.true_eq_false.mp
    rintro ⟨name, reason, hcorrupt⟩
    cases acc with
    | read name =>
      rw [answer_read] at hcorrupt
      cases hread : a.read name with
      | ok bytes =>
        rw [hread] at hcorrupt
        cases hcorrupt
      | error e =>
        rw [hread] at hcorrupt
        cases hcorrupt
        exact not_corrupt_of_read hin hread
    | write name bytes =>
      rw [file] at hin
      rw [answer_write] at hcorrupt
      obtain ⟨_, _, _, hwrite | ⟨_, _, hwrite⟩⟩ := write_cases h hin bytes <;>
        rw [hwrite] at hcorrupt <;> cases hcorrupt

/-- A call changes nothing, or makes folders, or makes folders and writes its file. -/
theorem after_cases (acc : Access) (h : a.Lies place) : acc.after a = a ∨
    isInside acc.file = true ∧ ∃ made disk : Disk, a.disk.Grows made ∧
      (∀ other, ¬ place <+: other → made.node? other = a.disk.node? other) ∧
        acc.after a = { a with disk } ∧
          (disk = made ∨ acc.written a = [Path.names acc.file] ∧ ∃ bytes,
            made.write (Path.join a.root acc.file) bytes = .ok disk) := by
  cases acc with
  | read file => exact .inl rfl
  | write file bytes =>
    cases hin : isInside file with
    | false => exact .inl (after_of_not_isInside hin)
    | true =>
      obtain ⟨made, hgrows, houtside, hmade | ⟨disk, hdisk, hwritten⟩⟩ := write_cases h hin bytes
      · exact .inr ⟨hin, made, made, hgrows, houtside, congrArg Prod.snd hmade, .inl rfl⟩
      · refine .inr ⟨hin, made, disk, hgrows, houtside, congrArg Prod.snd hwritten,
          .inr ⟨?_, bytes, hdisk⟩⟩
        simp only [written, Archive.write, hwritten, Access.file]

theorem root_after (acc : Access) (h : a.Lies place) : (acc.after a).root = a.root := by
  obtain hafter | ⟨_, _, disk, _, _, hafter, _⟩ := acc.after_cases h <;> rw [hafter]

theorem keepsFolders_after (acc : Access) (h : a.Lies place) :
    a.disk.KeepsFolders (acc.after a).disk := by
  obtain hafter | ⟨_, made, disk, hgrows, _, hafter, hdisk⟩ := acc.after_cases h <;> rw [hafter]
  · exact fun _ hfolder ↦ hfolder
  · obtain rfl | ⟨_, _, hwrite⟩ := hdisk
    · exact hgrows.keepsFolders
    · exact hgrows.keepsFolders.trans (Disk.keepsFolders_write hwrite)

theorem lies_after (acc : Access) (h : a.Lies place) : (acc.after a).Lies place :=
  h.keeps (acc.root_after h) (acc.keepsFolders_after h)

theorem node?_after (h : a.Lies place) (hother : ¬ place <+: other) :
    (acc.after a).disk.node? other = a.disk.node? other := by
  obtain hafter | ⟨hin, made, disk, hgrows, houtside, hafter, hdisk⟩ := acc.after_cases h <;>
    rw [hafter]
  obtain rfl | ⟨_, bytes, hwrite⟩ := hdisk
  · exact houtside other hother
  · obtain ⟨there, hthere, _, _, hnodes⟩ := Disk.write_spec hwrite
    have hne : other ≠ there := by
      rintro rfl
      rw [h.placeOf_keeps hgrows.keepsFolders hin hthere] at hother
      exact hother (List.prefix_append _ _)
    rw [hnodes, if_neg hne, houtside other hother]

theorem read_after (h : a.Lies place) (hread : a.read name = .ok bytes)
    (hwritten : Path.names name ∉ acc.written a) : (acc.after a).read name = .ok bytes := by
  obtain ⟨hinside, hbytes⟩ := read_eq_ok.1 hread
  obtain ⟨there, hthere, hfile, _⟩ := Disk.read_eq_ok.1 hbytes
  refine read_eq_ok.2 ⟨hinside, ?_⟩
  rw [acc.root_after h]
  apply (acc.keepsFolders_after h).read hthere ?_ hbytes
  obtain hafter | ⟨hin, made, disk, hgrows, _, hafter, hdisk⟩ := acc.after_cases h <;> rw [hafter]
  obtain rfl | ⟨hnames, _, hwrite⟩ := hdisk
  · rw [hfile]
    exact hgrows.node? hfile
  · obtain ⟨target, htarget, _, _, hnodes⟩ := Disk.write_spec hwrite
    have hne : there ≠ target := by
      rintro rfl
      have hsame := (h.placeOf_join hinside hthere).symm.trans
        (h.placeOf_keeps hgrows.keepsFolders hin htarget)
      rw [List.append_cancel_left_eq] at hsame
      rw [hnames, hsame] at hwritten
      exact hwritten List.mem_cons_self
    rw [hnodes, if_neg hne, hfile]
    exact hgrows.node? hfile

theorem answer_after (h : Alike place a a') (acc : Access) :
    acc.answer a' = acc.answer a ∧ Alike place (acc.after a) (acc.after a') := by
  cases acc with
  | read file => exact ⟨congrArg (Except.map some) (h.read file), h⟩
  | write file bytes =>
    obtain ⟨hanswer, hafter⟩ := h.write file bytes
    exact ⟨congrArg (Except.map fun _ ↦ none) hanswer, hafter⟩

def afterAll (accs : List Access) (a : FolderArchive) : FolderArchive :=
  accs.foldl (fun a acc ↦ acc.after a) a

def allWritten : List Access → FolderArchive → List (List String)
  | [], _ => []
  | acc :: accs, a => acc.written a ++ allWritten accs (acc.after a)

theorem lies_afterAll (accs : List Access) (h : a.Lies place) : (afterAll accs a).Lies place := by
  induction accs generalizing a with
  | nil => exact h
  | cons acc accs ih => exact ih (acc.lies_after h)

theorem node?_afterAll (accs : List Access) (h : a.Lies place) (hother : ¬ place <+: other) :
    (afterAll accs a).disk.node? other = a.disk.node? other := by
  induction accs generalizing a with
  | nil => rfl
  | cons acc accs ih => exact (ih (acc.lies_after h)).trans (node?_after h hother)

theorem alike_afterAll (accs : List Access) (h : Alike place a a') :
    Alike place (afterAll accs a) (afterAll accs a') := by
  induction accs generalizing a a' with
  | nil => exact h
  | cons acc accs ih => exact ih (answer_after h acc).2

theorem read_afterAll {accs : List Access} (h : a.Lies place) (hread : a.read name = .ok bytes)
    (hwritten : Path.names name ∉ allWritten accs a) :
    (afterAll accs a).read name = .ok bytes := by
  induction accs generalizing a with
  | nil => exact hread
  | cons acc accs ih =>
    rw [allWritten, List.mem_append, not_or] at hwritten
    exact ih (acc.lies_after h) (read_after h hread hwritten.1) hwritten.2

theorem read_write (h : a.Lies place) (hwrite : (a.write name bytes).1 = .ok ()) :
    (a.write name bytes).2.read name = .ok bytes := by
  cases hin : isInside name with
  | false =>
    rw [FolderArchive.write, path_of_not_isInside hin] at hwrite
    cases hwrite
  | true =>
    obtain ⟨made, _, _, hmade | ⟨disk, hdisk, hdone⟩⟩ := write_cases h hin bytes
    · rw [hmade] at hwrite
      cases hwrite
    · rw [hdone]
      exact read_eq_ok.2 ⟨hin, Disk.read_write hdisk⟩

/-- An archive in a folder is a store of its own, whatever calls are made. A name is refused as
corrupt, without effect, exactly when it is empty, absolute, or has a dot first or a double dot
anywhere. Nothing beside the folder changes or makes a difference. What was written is read, and a
file that was read has the same bytes until a write under the same names is granted. -/
theorem confined_and_keyed (h : a.Lies place) (accs : List Access) :
    (∀ acc : Access, ((∃ name reason,
          acc.answer (afterAll accs a) = .error (.corrupt name reason)) ↔
        acc.file = "" ∨ Path.isAbsolute acc.file = true ∨
          (Path.segments acc.file).head? = some "." ∨ ".." ∈ Path.segments acc.file) ∧
      ((∃ name reason, acc.answer (afterAll accs a) = .error (.corrupt name reason)) →
        acc.after (afterAll accs a) = afterAll accs a)) ∧
      (∀ other, ¬ place <+: other →
        (afterAll accs a).disk.node? other = a.disk.node? other) ∧
      (∀ a', Alike place a a' → ∀ acc : Access,
        acc.answer (afterAll accs a') = acc.answer (afterAll accs a)) ∧
      (∀ name bytes, (Archive.write name bytes (afterAll accs a)).1 = .ok () →
        (Archive.read name (Archive.write name bytes (afterAll accs a)).2).1 = .ok bytes) ∧
      ∀ name bytes more, (Archive.read name (afterAll accs a)).1 = .ok bytes →
        Path.names name ∉ allWritten more (afterAll accs a) →
          (Archive.read name (afterAll more (afterAll accs a))).1 = .ok bytes := by
  refine ⟨?_, fun other hother ↦ node?_afterAll accs h hother, ?_, ?_, ?_⟩
  · intro acc
    rw [corrupt_iff acc (lies_afterAll accs h), isInside_eq_false_iff]
    refine ⟨.rfl, fun hout ↦ after_of_not_isInside (isInside_eq_false_iff.2 hout)⟩
  · intro a' halike acc
    exact (answer_after (alike_afterAll accs halike) acc).1
  · intro name bytes hwrite
    exact read_write (lies_afterAll accs h) hwrite
  · intro name bytes more hread hwritten
    exact read_afterAll (lies_afterAll accs h) hread hwritten

def besideNotes : FolderArchive := ⟨⟨.ofList [(["notes"], Node.file [7])]⟩, "archive/"⟩

theorem notes_and_entry_kept :
    (afterAll [.write "m//a" [1]] besideNotes).disk.node? ["notes"] = some (.file [7]) ∧
      (Archive.read "m/./a" (afterAll [.write "m" [3], .write "m/b" [2]]
        (afterAll [.write "m//a" [1]] besideNotes))).1 = .ok [1] := by
  have hlies : besideNotes.Lies ["archive"] := Lies.of_placeOf (by decide +kernel)
  obtain ⟨_, hbeside, _, _, hkept⟩ := confined_and_keyed hlies [.write "m//a" [1]]
  refine ⟨?_, hkept "m/./a" [1] _ ?_ ?_⟩
  · rw [hbeside ["notes"] (by decide)]
    decide +kernel
  · decide +kernel
  · decide +kernel

end Access

end ScriptBreakpoints
