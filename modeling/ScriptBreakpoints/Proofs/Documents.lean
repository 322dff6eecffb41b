import ScriptBreakpoints.Breakpoints.Document
import ScriptBreakpoints.Proofs.Reading
import ScriptBreakpoints.Proofs.Storage

namespace ScriptBreakpoints

open Json

theorem mapM_map_some {α β γ : Type} {f : β → Option γ} {g : α → β} {h : α → γ}
    (hf : ∀ a, f (g a) = some (h a)) (as : List α) : (as.map g).mapM f = some (as.map h) := by
  induction as with
  | nil => rfl
  | cons a as ih => simp [List.mapM_cons, hf, ih]

namespace Json.Value

def ofMembers (members : List (String × Value)) : Value :=
  .object (members.map fun (key, v) ↦ (spell key, v))

theorem members?_ofMembers (members : List (String × Value)) :
    (ofMembers members).members? = some members := by
  rw [ofMembers, members?, mapM_map_some (h := id), List.map_id]
  intro m
  simp [read?_spell]

theorem sound_ofMembers {members : List (String × Value)} (h : ∀ m ∈ members, m.2.Sound) :
    (ofMembers members).Sound := by
  apply sound_object
  intro m' hm'
  obtain ⟨m, hm, rfl⟩ := List.mem_map.1 hm'
  exact ⟨Lexer.swallows_spell m.1, h m hm⟩

end Json.Value

namespace Address

def members (a : Address) : List (String × Value) :=
  [("routineId", .ofU64 a.routine), ("opcodeOffset", .ofU64 a.offset)]

theorem toJson_eq (a : Address) : a.toJson = .ofMembers a.members := rfl

theorem sound_toJson (a : Address) : a.toJson.Sound := by
  rw [toJson_eq]
  apply Value.sound_ofMembers
  intro m hm
  simp only [members, List.mem_cons, List.not_mem_nil, or_false] at hm
  obtain rfl | rfl := hm <;> exact Value.sound_ofU64 _

theorem ofJson?_toJson (a : Address) : ofJson? a.toJson = some a := by
  have hr : required? "routineId" Value.u64? a.members = some a.routine := by
    simp [required?, unique?, members, u64?_ofU64]
  have ho : required? "opcodeOffset" Value.u64? a.members = some a.offset := by
    simp [required?, unique?, members, u64?_ofU64]
  rw [toJson_eq]
  change (do
    let members ← (Value.ofMembers a.members).members?
    return (⟨← required? "routineId" Value.u64? members,
      ← required? "opcodeOffset" Value.u64? members⟩ : Address)) = some a
  rw [Value.members?_ofMembers]
  simp [hr, ho]

end Address

namespace Armed

def written (set : Std.ExtTreeSet Address) : Value := .array (set.toList.map Address.toJson)

theorem setOfJson?_written (set : Std.ExtTreeSet Address) :
    setOfJson? (written set) = some set := by
  have hitems : (set.toList.map Address.toJson).mapM Address.ofJson? = some set.toList := by
    rw [mapM_map_some (h := id) Address.ofJson?_toJson, List.map_id]
  rw [written, setOfJson?, hitems, Option.map_some, ofList_toList]

theorem sound_written (set : Std.ExtTreeSet Address) : (written set).Sound := by
  apply Value.sound_array
  intro v hv
  obtain ⟨a, _, rfl⟩ := List.mem_map.1 hv
  exact a.sound_toJson

def documentOf (scripts : List (String × Std.ExtTreeSet Address)) : Bytes :=
  pretty 0 (Value.ofMembers (scripts.map fun (file, set) ↦ (file, written set))).tokens

theorem document_eq (t : Armed) : t.document = documentOf t.toList := by
  rw [documentOf, Value.ofMembers, List.map_map]
  rfl

theorem ofList_perm {t : Armed} {scripts : List (String × Std.ExtTreeSet Address)}
    (h : scripts.Perm t.toList) : (.ofList scripts : Armed) = t := by
  have hdistinct : scripts.Pairwise fun a b ↦ ¬ compare a.1 b.1 = .eq :=
    (h.pairwise_iff fun hab hba ↦ hab (Std.OrientedCmp.eq_symm hba)).2
      Std.ExtTreeMap.distinct_keys_toList
  apply Std.ExtTreeMap.ext_getElem?
  intro file
  cases hset : t[file]? with
  | some set =>
    have hmem : (file, set) ∈ scripts :=
      h.mem_iff.2 (Std.ExtTreeMap.mem_toList_iff_getElem?_eq_some.2 hset)
    exact Std.ExtTreeMap.getElem?_ofList_of_mem Std.ReflCmp.compare_self hdistinct hmem
  | none =>
    apply Std.ExtTreeMap.getElem?_ofList_of_contains_eq_false
    rw [← Bool.not_eq_true, List.contains_iff_mem]
    intro hmem
    obtain ⟨⟨_, set⟩, hm, rfl⟩ := List.mem_map.1 hmem
    rw [h.mem_iff, Std.ExtTreeMap.mem_toList_iff_getElem?_eq_some, hset] at hm
    cases hm

/-- The order of the scripts in the document does not count. -/
theorem parse?_documentOf {t : Armed} {scripts : List (String × Std.ExtTreeSet Address)}
    (h : scripts.Perm t.toList) : parse? (documentOf scripts) = some t := by
  have hsound : (Value.ofMembers (scripts.map fun (file, set) ↦ (file, written set))).Sound := by
    apply Value.sound_ofMembers
    intro m' hm'
    obtain ⟨m, _, rfl⟩ := List.mem_map.1 hm'
    exact sound_written m.2
  rw [parse?, documentOf, parse?_pretty hsound, Option.bind_some, ofJson?, Value.members?_ofMembers]
  simp only [Option.bind_eq_bind, Option.bind_some]
  rw [mapM_map_some (h := id), List.map_id]
  · exact congrArg some (ofList_perm h)
  · intro m
    simp [setOfJson?_written]

end Armed

end ScriptBreakpoints
