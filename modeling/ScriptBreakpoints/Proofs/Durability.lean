import ScriptBreakpoints.Proofs.Documents
import ScriptBreakpoints.Proofs.Revising
import ScriptBreakpoints.Proofs.Walking

namespace ScriptBreakpoints

/-- A place that gives back what was written last, and that a failed write leaves as it was. -/
class LawfulBacking (μ : Type) [Backing μ] : Prop where
  read_written {bytes : Bytes} {m : μ} : (Backing.write bytes m).1 = .ok () →
    Backing.read (Backing.write bytes m).2 = .ok (some bytes)
  read_refused {bytes : Bytes} {m : μ} {e : StorageFault} :
    (Backing.write bytes m).1 = .error e →
      Backing.read (Backing.write bytes m).2 = Backing.read m

namespace BackingFile

theorem write_cases (bytes : Bytes) (m : BackingFile) :
    (Backing.write bytes m = (.error .inaccessible, m)) ∨
      ∃ disk, m.disk.write m.path bytes = .ok disk ∧
        Backing.write bytes m = (.ok (), { m with disk }) := by
  simp only [Backing.write]
  cases m.disk.write m.path bytes with
  | error e => exact .inl rfl
  | ok disk => exact .inr ⟨disk, rfl, rfl⟩

instance : LawfulBacking BackingFile where
  read_written {bytes m} h := by
    obtain hw | ⟨disk, hdisk, hw⟩ := write_cases bytes m
    · rw [hw] at h
      cases h
    · rw [hw]
      simp only [Backing.read, Disk.read_write hdisk]
  read_refused {bytes m e} h := by
    obtain hw | ⟨disk, _, hw⟩ := write_cases bytes m
    · rw [hw]
    · rw [hw] at h
      cases h

end BackingFile

section Refusing

variable {μ : Type} [Backing μ]

instance : Backing (Refusing Unit μ) where
  read m := Backing.read m.inner
  write bytes := Refusing.ask () (Backing.write bytes)

instance [LawfulBacking μ] : LawfulBacking (Refusing Unit μ) where
  read_written h := by
    obtain ⟨hw, hi⟩ := Refusing.ask_ok h
    have hr := LawfulBacking.read_written hw
    rw [← hi] at hr
    exact hr
  read_refused h := Refusing.ask_error (fun _ ↦ LawfulBacking.read_refused) h

end Refusing

namespace Ledger

open Revision

variable {μ : Type} [Backing μ] {m m' : μ} {l : Ledger μ}

def armedIn : Option Bytes → Except StorageFault Armed
  | none => .ok ∅
  | some document => (Armed.parse? document).elim (.error .malformed) .ok

theorem load_eq_ok :
    load m = .ok l ↔ (Backing.read m).bind armedIn = .ok l.armed ∧ l.backing = m := by
  obtain ⟨armed, backing⟩ := l
  rcases hread : Backing.read m with e | _ | document
  · simp [load, hread, bind, Except.bind]
  · simp [load, hread, bind, Except.bind, pure, Except.pure, armedIn, eq_comm]
  · simp only [load, hread, bind, Except.bind, armedIn]
    cases Armed.parse? document with
    | none => simp [throw, throwThe, MonadExceptOf.throw]
    | some parsed => simp [pure, Except.pure, eq_comm]

theorem load_backing (h : load m = .ok l) : load l.backing = .ok l := by
  obtain ⟨_, rfl⟩ := load_eq_ok.1 h
  exact h

theorem load_of_documentOf {t : Armed} {scripts : List (String × Std.ExtTreeSet Address)}
    (hscripts : scripts.Perm t.toList)
    (h : Backing.read m = .ok (some (Armed.documentOf scripts))) : load m = .ok ⟨t, m⟩ := by
  refine load_eq_ok.2 ⟨?_, rfl⟩
  rw [h]
  simp [Except.bind, armedIn, Armed.parse?_documentOf hscripts]

variable [LawfulBacking μ]

theorem load_commit (armed : Armed) (h : load l.backing = .ok l) :
    load (l.commit armed).2.backing = .ok (l.commit armed).2 := by
  rcases hw : Backing.write armed.document l.backing with ⟨e | _, m'⟩
  · have hread := LawfulBacking.read_refused (congrArg Prod.fst hw)
    rw [hw] at hread
    simp only [commit, hw]
    exact load_eq_ok.2 ⟨hread ▸ (load_eq_ok.1 h).1, rfl⟩
  · have hread := LawfulBacking.read_written (congrArg Prod.fst hw)
    rw [hw, Armed.document_eq] at hread
    simp only [commit, hw]
    exact load_of_documentOf (.refl _) hread

theorem load_ask (r : Revision) (h : load l.backing = .ok l) :
    load (r.ask l).2.backing = .ok (r.ask l).2 := by
  rw [ask_eq_commit?]
  cases revised? r l.armed with
  | none => exact h
  | some armed => exact load_commit armed h

theorem load_askAll (rs : List Revision) (h : load l.backing = .ok l) :
    load (askAll rs l).backing = .ok (askAll rs l) := by
  induction rs generalizing l with
  | nil => exact h
  | cons r rs ih => exact ih (load_ask r h)

/-- Whatever is asked of a ledger that was loaded, and whichever writes fail, the document can be
loaded again and it is the same ledger, with the same breakpoints on every file. Every document is
read as the breakpoints it was written from, with its scripts in any order. -/
theorem reloads_as_it_is (h : load m = .ok l) :
    (∀ rs : List Revision, ∃ again, load (askAll rs l).backing = .ok again ∧ ∀ file,
        (BreakpointStore.list file again).1 = (BreakpointStore.list file (askAll rs l)).1) ∧
      ∀ t : Armed, t.document = Armed.documentOf t.toList ∧
        ∀ scripts, scripts.Perm t.toList →
          Armed.parse? (Armed.documentOf scripts) = some t ∧
            ∀ m : μ, Backing.read m = .ok (some (Armed.documentOf scripts)) →
              load m = .ok ⟨t, m⟩ := by
  refine ⟨fun rs ↦ ⟨askAll rs l, load_askAll rs (load_backing h), fun _ ↦ rfl⟩, ?_⟩
  intro t
  refine ⟨t.document_eq, ?_⟩
  intro scripts hscripts
  exact ⟨Armed.parse?_documentOf hscripts, fun m hm ↦ load_of_documentOf hscripts hm⟩

def firstWriteFails : Refusing Unit BackingFile := ⟨⟨.empty, "armed.json"⟩, fun _ ↦ [true]⟩

theorem second_change_reloads : ∃ again,
    load (askAll [.add "a" ⟨1, 3⟩, .add "\"b\\" ⟨1, 18446744073709551615⟩]
        (Ledger.mk ∅ firstWriteFails)).backing = .ok again ∧
      (BreakpointStore.list "a" again).1 = .ok [] ∧
        (BreakpointStore.list "\"b\\" again).1 = .ok [⟨1, 18446744073709551615⟩] := by
  have hload : load firstWriteFails = .ok (Ledger.mk ∅ firstWriteFails) := by rfl
  obtain ⟨again, hagain, hlist⟩ := (reloads_as_it_is hload).1
    [.add "a" ⟨1, 3⟩, .add "\"b\\" ⟨1, 18446744073709551615⟩]
  refine ⟨again, hagain, ?_, ?_⟩
  · rw [hlist]
    decide +kernel
  · rw [hlist]
    decide +kernel

end Ledger

end ScriptBreakpoints
