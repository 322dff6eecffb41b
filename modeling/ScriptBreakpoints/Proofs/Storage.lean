import Mathlib.Logic.Function.Basic
import ScriptBreakpoints.Breakpoints.Ledger
import ScriptBreakpoints.Refusal

namespace ScriptBreakpoints

/-- An archive that keeps what was written last. -/
class LawfulArchive (σ : Type) [Archive σ] where
  content : σ → String → Option Bytes
  content_of_read {file : String} {a : σ} {bytes : Bytes} :
    (Archive.read file a).1 = .ok bytes → content a file = some bytes
  content_read (file : String) (a : σ) : content (Archive.read file a).2 = content a
  content_write {file : String} {bytes : Bytes} {a : σ} :
    (Archive.write file bytes a).1 = .ok () →
      content (Archive.write file bytes a).2 file = some bytes
  content_refused {file : String} {bytes : Bytes} {a : σ} {e : StorageFault} :
    (Archive.write file bytes a).1 = .error e →
      content (Archive.write file bytes a).2 = content a

class KeyedArchive (σ : Type) [Archive σ] extends LawfulArchive σ where
  content_write_other {file other : String} (bytes : Bytes) (a : σ) :
    other ≠ file → content (Archive.write file bytes a).2 other = content a other

/-- A store that keeps a set of addresses for every file name. -/
class LawfulStore (τ : Type) [BreakpointStore τ] where
  armed : τ → String → Std.ExtTreeSet Address
  list_eq {file : String} {t : τ} {addresses : List Address} :
    (BreakpointStore.list file t).1 = .ok addresses → addresses = (armed t file).toList
  armed_list (file : String) (t : τ) : armed (BreakpointStore.list file t).2 = armed t
  armed_add {file : String} {a : Address} {t : τ} :
    (BreakpointStore.add file a t).1 = .ok () →
      armed (BreakpointStore.add file a t).2 =
        Function.update (armed t) file ((armed t file).insert a)
  add_refused {file : String} {a : Address} {t : τ} {e : StorageFault} :
    (BreakpointStore.add file a t).1 = .error e →
      armed (BreakpointStore.add file a t).2 = armed t
  armed_remove {file : String} {a : Address} {t : τ} :
    (BreakpointStore.remove file a t).1 = .ok () →
      armed (BreakpointStore.remove file a t).2 =
        Function.update (armed t) file ((armed t file).erase a)
  remove_refused {file : String} {a : Address} {t : τ} {e : StorageFault} :
    (BreakpointStore.remove file a t).1 = .error e →
      armed (BreakpointStore.remove file a t).2 = armed t
  armed_resync {file : String} {addresses : List Address} {t : τ} :
    (BreakpointStore.resync file addresses t).1 = .ok () →
      armed (BreakpointStore.resync file addresses t).2 =
        Function.update (armed t) file (.ofList addresses)
  resync_refused {file : String} {addresses : List Address} {t : τ} {e : StorageFault} :
    (BreakpointStore.resync file addresses t).1 = .error e →
      armed (BreakpointStore.resync file addresses t).2 = armed t

section Sets

variable {α : Type} [Ord α] [Std.TransOrd α] [Std.LawfulEqOrd α] {set : Std.ExtTreeSet α} {x y : α}

theorem mem_ofList [DecidableEq α] {xs : List α} :
    x ∈ Std.ExtTreeSet.ofList xs compare ↔ x ∈ xs := by
  rw [Std.ExtTreeSet.mem_ofList, List.contains_iff_mem]

theorem mem_insert_iff : y ∈ set.insert x ↔ x = y ∨ y ∈ set :=
  Std.ExtTreeSet.mem_insert.trans (or_congr Std.compare_eq_iff_eq Iff.rfl)

theorem mem_erase_iff : y ∈ set.erase x ↔ x ≠ y ∧ y ∈ set :=
  Std.ExtTreeSet.mem_erase.trans (and_congr (not_congr Std.compare_eq_iff_eq) Iff.rfl)

end Sets

theorem ofList_toList (set : Std.ExtTreeSet Address) :
    Std.ExtTreeSet.ofList set.toList compare = set := by
  refine Std.ExtTreeSet.ext_mem fun a ↦ ?_
  rw [mem_ofList, Std.ExtTreeSet.mem_toList]

namespace ArchiveMap

instance : KeyedArchive ArchiveMap where
  content a file := a.entries[file]?
  content_of_read {file a bytes} h := by
    simp only [Archive.read] at h
    cases he : a.entries[file]? <;> simp_all
  content_read _ _ := rfl
  content_write _ := Std.ExtTreeMap.getElem?_insert_self
  content_refused h := by cases h
  content_write_other bytes a h := by
    simp only [Archive.write, Std.ExtTreeMap.getElem?_insert, Std.compare_eq_iff_eq]
    rw [if_neg (Ne.symm h)]

end ArchiveMap

namespace ReadOnly

variable {σ : Type} [Archive σ]

instance [LawfulArchive σ] : LawfulArchive (ReadOnly σ) where
  content a := LawfulArchive.content a.inner
  content_of_read h := LawfulArchive.content_of_read h
  content_read file a := LawfulArchive.content_read file a.inner
  content_write h := by cases h
  content_refused _ := rfl

instance [KeyedArchive σ] : KeyedArchive (ReadOnly σ) where
  content_write_other _ _ _ := rfl

end ReadOnly

namespace Refusing

variable {κ σ α : Type} [DecidableEq κ]

theorem ask_of_refuses {k : κ} {r : Refusing κ σ} (h : r.refuses k = true)
    (call : σ → Except StorageFault α × σ) :
    ask k call r = (.error .inaccessible, r.setQueue k (r.queues k).tail) := by
  rw [ask, if_pos h]

theorem ask_of_not_refuses {k : κ} {r : Refusing κ σ} (h : r.refuses k = false)
    (call : σ → Except StorageFault α × σ) :
    ask k call r =
      ((call r.inner).1, { r.setQueue k (r.queues k).tail with inner := (call r.inner).2 }) := by
  rw [ask, if_neg (by rw [h]; decide)]

/-- A call is refused, and then the storage behind it is as it was, or it gets through. -/
theorem ask_cases (k : κ) (call : σ → Except StorageFault α × σ) (r : Refusing κ σ) :
    ((ask k call r).1 = .error .inaccessible ∧ (ask k call r).2.inner = r.inner) ∨
      ((ask k call r).1 = (call r.inner).1 ∧ (ask k call r).2.inner = (call r.inner).2) := by
  cases h : r.refuses k
  · rw [ask_of_not_refuses h]
    exact .inr ⟨rfl, rfl⟩
  · rw [ask_of_refuses h]
    exact .inl ⟨rfl, rfl⟩

theorem ask_ok {k : κ} {call : σ → Except StorageFault α × σ} {r : Refusing κ σ} {a : α}
    (h : (ask k call r).1 = .ok a) :
    (call r.inner).1 = .ok a ∧ (ask k call r).2.inner = (call r.inner).2 := by
  obtain ⟨he, -⟩ | ⟨hr, hi⟩ := ask_cases k call r
  · rw [he] at h
    cases h
  · exact ⟨hr ▸ h, hi⟩

theorem ask_error {β : Type} {view : σ → β} {k : κ} {call : σ → Except StorageFault α × σ}
    {r : Refusing κ σ} {e : StorageFault}
    (hcall : ∀ e, (call r.inner).1 = .error e → view (call r.inner).2 = view r.inner)
    (h : (ask k call r).1 = .error e) : view (ask k call r).2.inner = view r.inner := by
  obtain ⟨-, hi⟩ | ⟨hr, hi⟩ := ask_cases k call r
  · rw [hi]
  · rw [hi]
    exact hcall e (hr ▸ h)

theorem ask_view {β : Type} (view : σ → β) {k : κ} {call : σ → Except StorageFault α × σ}
    {r : Refusing κ σ} (hcall : view (call r.inner).2 = view r.inner) :
    view (ask k call r).2.inner = view r.inner := by
  obtain ⟨-, hi⟩ | ⟨-, hi⟩ := ask_cases k call r
  · rw [hi]
  · rw [hi, hcall]

instance [Archive σ] [LawfulArchive σ] : LawfulArchive (Refusing ArchiveCall σ) where
  content r := LawfulArchive.content r.inner
  content_of_read h := LawfulArchive.content_of_read (ask_ok h).1
  content_read file r := ask_view _ (LawfulArchive.content_read file r.inner)
  content_write h := by
    obtain ⟨hw, hi⟩ := ask_ok h
    have hc := LawfulArchive.content_write hw
    rw [← hi] at hc
    exact hc
  content_refused h := ask_error (fun _ ↦ LawfulArchive.content_refused) h

instance [Archive σ] [KeyedArchive σ] : KeyedArchive (Refusing ArchiveCall σ) where
  content_write_other {_ other} bytes r hne :=
    ask_view (fun a ↦ LawfulArchive.content a other)
      (KeyedArchive.content_write_other bytes r.inner hne)

instance [BreakpointStore σ] [LawfulStore σ] : LawfulStore (Refusing StoreCall σ) where
  armed r := LawfulStore.armed r.inner
  list_eq h := LawfulStore.list_eq (ask_ok h).1
  armed_list file r := ask_view _ (LawfulStore.armed_list file r.inner)
  armed_add {file a r} h := by
    obtain ⟨hc, hi⟩ := ask_ok h
    have ha := LawfulStore.armed_add hc
    rw [← hi] at ha
    exact ha
  add_refused h := ask_error (fun _ ↦ LawfulStore.add_refused) h
  armed_remove {file a r} h := by
    obtain ⟨hc, hi⟩ := ask_ok h
    have ha := LawfulStore.armed_remove hc
    rw [← hi] at ha
    exact ha
  remove_refused h := ask_error (fun _ ↦ LawfulStore.remove_refused) h
  armed_resync {file addresses r} h := by
    obtain ⟨hc, hi⟩ := ask_ok h
    have ha := LawfulStore.armed_resync hc
    rw [← hi] at ha
    exact ha
  resync_refused h := ask_error (fun _ ↦ LawfulStore.resync_refused) h

end Refusing

namespace Armed

variable {set : Std.ExtTreeSet Address} {a : Address}

theorem insert_of_mem (h : a ∈ set) : set.insert a = set := by
  refine Std.ExtTreeSet.ext_mem fun b ↦ ?_
  rw [Std.ExtTreeSet.mem_insert, Std.compare_eq_iff_eq]
  exact ⟨fun hb ↦ hb.elim (· ▸ h) id, .inr⟩

theorem erase_of_not_mem (h : a ∉ set) : set.erase a = set := by
  refine Std.ExtTreeSet.ext_mem fun b ↦ ?_
  rw [Std.ExtTreeSet.mem_erase, ne_eq, Std.compare_eq_iff_eq]
  exact ⟨And.right, fun hb ↦ ⟨fun hab ↦ h (hab ▸ hb), hb⟩⟩

def addresses (t : Armed) (file : String) : Std.ExtTreeSet Address := t[file]?.getD ∅

theorem addresses_insert (t : Armed) (file : String) (set : Std.ExtTreeSet Address) :
    addresses (t.insert file set) = Function.update t.addresses file set := by
  funext other
  by_cases h : other = file
  · subst h
    rw [Function.update_self, addresses, Std.ExtTreeMap.getElem?_insert_self, Option.getD_some]
  · rw [Function.update_of_ne h, addresses, addresses, Std.ExtTreeMap.getElem?_insert,
      if_neg (by rw [Std.compare_eq_iff_eq]; exact Ne.symm h)]

theorem addresses_erase (t : Armed) (file : String) :
    addresses (t.erase file) = Function.update t.addresses file ∅ := by
  funext other
  by_cases h : other = file
  · subst h
    rw [Function.update_self, addresses, Std.ExtTreeMap.getElem?_erase_self, Option.getD_none]
  · rw [Function.update_of_ne h, addresses, addresses, Std.ExtTreeMap.getElem?_erase,
      if_neg (by rw [Std.compare_eq_iff_eq]; exact Ne.symm h)]

theorem addresses_resync (t : Armed) (file : String) (as : List Address) :
    (t.resync file as).addresses = Function.update t.addresses file (.ofList as) := by
  cases as with
  | nil => exact addresses_erase t file
  | cons a as => exact addresses_insert t file _

theorem addresses_add? (t : Armed) (file : String) (a : Address) :
    ((t.add? file a).getD t).addresses =
      Function.update t.addresses file ((t.addresses file).insert a) := by
  by_cases h : a ∈ t[file]?.getD ∅
  · have hset : (t.addresses file).insert a = t.addresses file :=
      insert_of_mem h
    rw [add?, if_pos h, Option.getD_none, hset, Function.update_eq_self]
  · rw [add?, if_neg h, Option.getD_some, addresses_insert]
    rfl

theorem addresses_remove? (t : Armed) (file : String) (a : Address) :
    ((t.remove? file a).getD t).addresses =
      Function.update t.addresses file ((t.addresses file).erase a) := by
  by_cases h : a ∈ t[file]?.getD ∅
  · rw [remove?, if_neg (not_not.2 h)]
    by_cases he : ((t[file]?.getD ∅).erase a).isEmpty
    · rw [if_pos he, Option.getD_some, addresses_erase]
      exact congrArg _ (Std.ExtTreeSet.isEmpty_iff.1 he).symm
    · rw [if_neg he, Option.getD_some, addresses_insert]
      rfl
  · have hset : (t.addresses file).erase a = t.addresses file :=
      erase_of_not_mem h
    rw [remove?, if_pos h, Option.getD_none, hset, Function.update_eq_self]

end Armed

namespace Ledger

variable {μ : Type} [Backing μ]

/-- A change happens when its document is written, and else nothing does. -/
theorem commit_cases (armed : Armed) (l : Ledger μ) :
    ((l.commit armed).1 = .ok () ∧ (l.commit armed).2.armed = armed) ∨
      ((∃ e, (l.commit armed).1 = .error e) ∧ (l.commit armed).2.armed = l.armed) := by
  rw [commit]
  rcases Backing.write armed.document l.backing with ⟨e | _, backing⟩
  · exact .inr ⟨⟨e, rfl⟩, rfl⟩
  · exact .inl ⟨rfl, rfl⟩

theorem armed_commit {armed : Armed} {l : Ledger μ} (h : (l.commit armed).1 = .ok ()) :
    (l.commit armed).2.armed = armed := by
  obtain ⟨-, ha⟩ | ⟨⟨e, he⟩, -⟩ := l.commit_cases armed
  · exact ha
  · rw [he] at h
    cases h

theorem commit_refused {armed : Armed} {l : Ledger μ} {e : StorageFault}
    (h : (l.commit armed).1 = .error e) : (l.commit armed).2.armed = l.armed := by
  obtain ⟨hok, -⟩ | ⟨-, ha⟩ := l.commit_cases armed
  · rw [hok] at h
    cases h
  · exact ha

theorem armed_commit? {change : Option Armed} {l : Ledger μ} (h : (l.commit? change).1 = .ok ()) :
    (l.commit? change).2.armed = change.getD l.armed := by
  cases change with
  | none => rfl
  | some armed => exact armed_commit h

theorem commit?_refused {change : Option Armed} {l : Ledger μ} {e : StorageFault}
    (h : (l.commit? change).1 = .error e) : (l.commit? change).2.armed = l.armed := by
  cases change with
  | none => rfl
  | some armed => exact commit_refused h

instance : LawfulStore (Ledger μ) where
  armed l := l.armed.addresses
  list_eq h := (Except.ok.inj h).symm
  armed_list _ _ := rfl
  armed_add {file a l} h := (congrArg Armed.addresses (armed_commit? h)).trans
    (l.armed.addresses_add? file a)
  add_refused h := congrArg Armed.addresses (commit?_refused h)
  armed_remove {file a l} h := (congrArg Armed.addresses (armed_commit? h)).trans
    (l.armed.addresses_remove? file a)
  remove_refused h := congrArg Armed.addresses (commit?_refused h)
  armed_resync {file addresses l} h := (congrArg Armed.addresses (armed_commit h)).trans
    (l.armed.addresses_resync file addresses)
  resync_refused h := congrArg Armed.addresses (commit_refused h)

end Ledger

namespace ResyncRefusing

variable {τ : Type} [BreakpointStore τ]

instance [LawfulStore τ] : LawfulStore (ResyncRefusing τ) where
  armed s := LawfulStore.armed s.inner
  list_eq h := LawfulStore.list_eq h
  armed_list file s := LawfulStore.armed_list file s.inner
  armed_add h := LawfulStore.armed_add h
  add_refused h := LawfulStore.add_refused h
  armed_remove h := LawfulStore.armed_remove h
  remove_refused h := LawfulStore.remove_refused h
  armed_resync h := by cases h
  resync_refused _ := rfl

end ResyncRefusing

end ScriptBreakpoints
