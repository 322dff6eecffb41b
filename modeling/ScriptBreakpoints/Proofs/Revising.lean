import Mathlib.Data.Finset.Basic
import ScriptBreakpoints.Proofs.Storage

namespace ScriptBreakpoints

inductive Revision
  | add (file : String) (a : Address)
  | remove (file : String) (a : Address)
  | resync (file : String) (addresses : List Address)

abbrev AddressSets := String → Finset Address

structure Enumerates (as : List Address) (set : Finset Address) : Prop where
  ascending : as.Pairwise fun a b ↦
    a.routine < b.routine ∨ a.routine = b.routine ∧ a.offset < b.offset
  mem_iff : ∀ a, a ∈ as ↔ a ∈ set

theorem Address.compare_eq_lt {a b : Address} :
    compare a b = .lt ↔ a.routine < b.routine ∨ a.routine = b.routine ∧ a.offset < b.offset := by
  change (compare a.routine b.routine).then (compare a.offset b.offset) = .lt ↔ _
  rw [Ordering.then_eq_lt, Std.compare_eq_lt, Std.compare_eq_lt, Std.compare_eq_iff_eq]

theorem enumerates_toList (set : Std.ExtTreeSet Address) :
    Enumerates set.toList set.toList.toFinset := by
  refine ⟨Std.ExtTreeSet.ordered_toList.imp fun hab ↦ Address.compare_eq_lt.1 hab, ?_⟩
  intro a
  rw [List.mem_toFinset]

namespace Revision

def change : Revision → AddressSets → AddressSets
  | add file a, sets => Function.update sets file (insert a (sets file))
  | remove file a, sets => Function.update sets file ((sets file).erase a)
  | resync file as, sets => Function.update sets file as.toFinset

def Idle : Revision → AddressSets → Prop
  | add file a, sets => a ∈ sets file
  | remove file a, sets => a ∉ sets file
  | resync _ _, _ => False

variable {τ : Type} [BreakpointStore τ]

def ask : Revision → τ → Except StorageFault Unit × τ
  | add file a => BreakpointStore.add file a
  | remove file a => BreakpointStore.remove file a
  | resync file as => BreakpointStore.resync file as

def askAll (rs : List Revision) (t : τ) : τ := rs.foldl (fun t r ↦ (r.ask t).2) t

def granted : List Revision → τ → List Revision
  | [], _ => []
  | r :: rs, t =>
    match r.ask t with
    | (.ok (), t') => r :: granted rs t'
    | (.error _, t') => granted rs t'

def changeAll (rs : List Revision) (sets : AddressSets) : AddressSets :=
  rs.foldl (fun sets r ↦ r.change sets) sets

variable [LawfulStore τ]

def setsOf (t : τ) : AddressSets := fun file ↦ (LawfulStore.armed t file).toList.toFinset

omit [LawfulStore τ] in
theorem toFinset_update (armed : String → Std.ExtTreeSet Address) (file : String)
    {set : Std.ExtTreeSet Address} {s : Finset Address} (h : set.toList.toFinset = s) :
    (fun other ↦ (Function.update armed file set other).toList.toFinset) =
      Function.update (fun other ↦ (armed other).toList.toFinset) file s := by
  funext other
  by_cases ho : other = file
  · subst ho
    rw [Function.update_self, Function.update_self, h]
  · rw [Function.update_of_ne ho, Function.update_of_ne ho]

theorem setsOf_granted {r : Revision} {t : τ} (h : (r.ask t).1 = .ok ()) :
    setsOf (r.ask t).2 = r.change (setsOf t) := by
  unfold setsOf
  cases r with
  | add file a =>
    rw [ask, LawfulStore.armed_add h]
    apply toFinset_update
    ext b
    rw [List.mem_toFinset, Std.ExtTreeSet.mem_toList, mem_insert_iff, Finset.mem_insert,
      List.mem_toFinset, Std.ExtTreeSet.mem_toList, eq_comm]
  | remove file a =>
    rw [ask, LawfulStore.armed_remove h]
    apply toFinset_update
    ext b
    rw [List.mem_toFinset, Std.ExtTreeSet.mem_toList, mem_erase_iff, Finset.mem_erase,
      List.mem_toFinset, Std.ExtTreeSet.mem_toList, ne_comm]
  | resync file as =>
    rw [ask, LawfulStore.armed_resync h]
    apply toFinset_update
    ext b
    rw [List.mem_toFinset, Std.ExtTreeSet.mem_toList, mem_ofList, List.mem_toFinset]

theorem setsOf_refused {r : Revision} {t : τ} {e : StorageFault} (h : (r.ask t).1 = .error e) :
    setsOf (r.ask t).2 = setsOf t := by
  have harmed : LawfulStore.armed (r.ask t).2 = LawfulStore.armed t := by
    cases r with
    | add file a => exact LawfulStore.add_refused h
    | remove file a => exact LawfulStore.remove_refused h
    | resync file as => exact LawfulStore.resync_refused h
  unfold setsOf
  rw [harmed]

theorem setsOf_askAll (rs : List Revision) (t : τ) :
    setsOf (askAll rs t) = changeAll (granted rs t) (setsOf t) := by
  induction rs generalizing t with
  | nil => rfl
  | cons r rs ih =>
    change setsOf (askAll rs (r.ask t).2) = _
    rw [ih]
    rcases hr : r.ask t with ⟨e | _, t'⟩
    · have hkept := setsOf_refused (congrArg Prod.fst hr)
      rw [hr] at hkept
      simp only [granted, hr, hkept]
    · have hmade := setsOf_granted (congrArg Prod.fst hr)
      rw [hr] at hmade
      simp only [granted, hr, changeAll, List.foldl_cons, hmade]

end Revision

/-- A place for the document where every attempt to write is noted. -/
structure Watched (μ : Type) where
  inner : μ
  attempts : List Bytes

instance {μ : Type} [Backing μ] : Backing (Watched μ) where
  read m := Backing.read m.inner
  write bytes m :=
    let (result, inner) := Backing.write bytes m.inner
    (result, ⟨inner, m.attempts ++ [bytes]⟩)

namespace Ledger

open Revision

variable {μ : Type} [Backing μ]

def watched (l : Ledger μ) : Ledger (Watched μ) := ⟨l.armed, ⟨l.backing, []⟩⟩

theorem mem_setsOf {l : Ledger μ} {file : String} {a : Address} :
    a ∈ setsOf l file ↔ a ∈ l.armed[file]?.getD ∅ := by
  unfold setsOf
  rw [List.mem_toFinset, Std.ExtTreeSet.mem_toList]
  rfl

def revised? (r : Revision) (armed : Armed) : Option Armed :=
  match r with
  | .add file a => armed.add? file a
  | .remove file a => armed.remove? file a
  | .resync file as => some (armed.resync file as)

theorem ask_eq_commit? (r : Revision) (l : Ledger μ) :
    r.ask l = l.commit? (revised? r l.armed) := by
  cases r <;> rfl

theorem revised?_eq_none_iff {r : Revision} {l : Ledger μ} :
    revised? r l.armed = none ↔ r.Idle (setsOf l) := by
  cases r with
  | add file a =>
    simp only [revised?, Armed.add?, Idle, mem_setsOf]
    by_cases h : a ∈ l.armed[file]?.getD ∅ <;> simp [h]
  | remove file a =>
    simp only [revised?, Armed.remove?, Idle, mem_setsOf]
    by_cases h : a ∈ l.armed[file]?.getD ∅
    · rw [if_neg (not_not.2 h)]
      split <;> simp [h]
    · simp [h]
  | resync file as => simp [revised?, Idle]

theorem ask_idle {r : Revision} {l : Ledger μ} (h : r.Idle (setsOf l)) : r.ask l = (.ok (), l) := by
  rw [ask_eq_commit?, revised?_eq_none_iff.2 h]
  rfl

/-- Nothing is written if there is nothing to do, and else the document is, once. -/
theorem attempts_ask (r : Revision) (l : Ledger μ) :
    (r.ask l.watched).2.backing.attempts = (revised? r l.armed).toList.map Armed.document := by
  rw [ask_eq_commit?]
  change (l.watched.commit? (revised? r l.armed)).2.backing.attempts = _
  cases revised? r l.armed with
  | none => rfl
  | some armed =>
    simp only [commit?, Option.elim_some, commit, Backing.write, watched]
    rcases Backing.write armed.document l.backing with ⟨e | _, m⟩ <;> rfl

theorem attempts_eq_nil_iff {r : Revision} {l : Ledger μ} :
    (r.ask l.watched).2.backing.attempts = [] ↔ r.Idle (setsOf l) := by
  rw [attempts_ask, List.map_eq_nil_iff, ← revised?_eq_none_iff]
  cases revised? r l.armed <;> simp

theorem list_eq_of_setsOf {l l' : Ledger μ} (h : setsOf l' = setsOf l) (file : String) :
    l'.armed.list file = l.armed.list file := by
  have hset : l'.armed[file]?.getD ∅ = l.armed[file]?.getD ∅ := by
    apply Std.ExtTreeSet.ext_mem
    intro a
    rw [← mem_setsOf, ← mem_setsOf, h]
  rw [Armed.list, Armed.list, hset]

/-- A ledger keeps finite sets of addresses. Whatever it begins with and whichever writes fail, it
lists after any changes what the granted ones make of the first sets; a change that fails leaves
every list as it was; and one that finds nothing to do is granted, and it alone attempts no
write. -/
theorem refines_sets (l : Ledger μ) :
    (∀ (rs : List Revision) (file : String), ∃ as,
        BreakpointStore.list file (askAll rs l) = (.ok as, askAll rs l) ∧
          Enumerates as (changeAll (granted rs l) (setsOf l) file)) ∧
      (∀ (r : Revision) (e : StorageFault), (r.ask l).1 = .error e → ∀ file,
        (BreakpointStore.list file (r.ask l).2).1 = (BreakpointStore.list file l).1) ∧
      ∀ r : Revision, (r.Idle (setsOf l) → r.ask l = (.ok (), l)) ∧
        ((r.ask l.watched).2.backing.attempts = [] ↔ r.Idle (setsOf l)) := by
  refine ⟨?_, ?_, fun r ↦ ⟨ask_idle, attempts_eq_nil_iff⟩⟩
  · intro rs file
    refine ⟨(askAll rs l).armed.list file, rfl, ?_⟩
    rw [← setsOf_askAll]
    exact enumerates_toList _
  · intro r e h file
    exact congrArg Except.ok (list_eq_of_setsOf (setsOf_refused h) file)

end Ledger

end ScriptBreakpoints
