import ScriptBreakpoints.Proofs.Actions
import ScriptBreakpoints.Proofs.Storage

namespace ScriptBreakpoints

section Tables

variable {V : Type} {t : Std.ExtTreeMap String V} {file other : String} {v v' : V}

theorem getElem?_insert_of_ne (h : other ≠ file) : (t.insert file v)[other]? = t[other]? := by
  rw [Std.ExtTreeMap.getElem?_insert, if_neg]
  rw [Std.compare_eq_iff_eq]
  exact Ne.symm h

theorem getElem?_erase_of_ne (h : other ≠ file) : (t.erase file)[other]? = t[other]? := by
  rw [Std.ExtTreeMap.getElem?_erase, if_neg]
  rw [Std.compare_eq_iff_eq]
  exact Ne.symm h

theorem insert_of_getElem? (h : t[file]? = some v) : t.insert file v = t := by
  refine Std.ExtTreeMap.ext_getElem? fun other ↦ ?_
  by_cases ho : other = file
  · rw [ho, Std.ExtTreeMap.getElem?_insert_self, h]
  · exact getElem?_insert_of_ne ho

theorem insert_insert : (t.insert file v).insert file v' = t.insert file v' := by
  refine Std.ExtTreeMap.ext_getElem? fun other ↦ ?_
  by_cases ho : other = file
  · rw [ho, Std.ExtTreeMap.getElem?_insert_self, Std.ExtTreeMap.getElem?_insert_self]
  · rw [getElem?_insert_of_ne ho, getElem?_insert_of_ne ho, getElem?_insert_of_ne ho]

theorem cases_of_insert (h : (t.insert file v)[other]? = some v') :
    (other = file ∧ v' = v) ∨ (other ≠ file ∧ t[other]? = some v') := by
  by_cases ho : other = file
  · rw [ho, Std.ExtTreeMap.getElem?_insert_self] at h
    cases h
    exact .inl ⟨ho, rfl⟩
  · rw [getElem?_insert_of_ne ho] at h
    exact .inr ⟨ho, h⟩

theorem absent_of_insert (h : (t.insert file v)[other]? = none) :
    other ≠ file ∧ t[other]? = none := by
  have ho : other ≠ file := by
    rintro rfl
    rw [Std.ExtTreeMap.getElem?_insert_self] at h
    cases h
  rw [getElem?_insert_of_ne ho] at h
  exact ⟨ho, h⟩

end Tables

inductive Reads {σ : Type} [Archive σ] (a : σ) : σ → Prop
  | not : Reads a a
  | read (file : String) : Reads a (Archive.read file a).2

theorem Reads.content_eq {σ : Type} [Archive σ] [LawfulArchive σ] {a a' : σ} (h : Reads a a') :
    LawfulArchive.content a' = LawfulArchive.content a := by
  cases h with
  | not => rfl
  | read file => exact LawfulArchive.content_read file a

namespace Workspace

variable {σ τ α : Type}

@[simp] theorem outcome_note (n : Notice) (w : Workspace σ τ) :
    (note n : Action σ τ Unit).outcome w = (.ok (), { w with log := w.log ++ [n] }) := rfl

@[simp] theorem outcome_askArchive (call : σ → Except StorageFault α × σ) (w : Workspace σ τ) :
    (askArchive call : Action σ τ _).outcome w =
      (.ok (call w.archive).1, { w with archive := (call w.archive).2 }) := rfl

@[simp] theorem outcome_askStore (call : τ → Except StorageFault α × τ) (w : Workspace σ τ) :
    (askStore call : Action σ τ _).outcome w =
      (.ok (call w.store).1, { w with store := (call w.store).2 }) := rfl

@[simp] theorem outcome_demand_ok (a : α) (w : Workspace σ τ) :
    (demand (.ok a) : Action σ τ α).outcome w = (.ok a, w) := rfl

@[simp] theorem outcome_demand_error (e : StorageFault) (w : Workspace σ τ) :
    (demand (.error e) : Action σ τ α).outcome w = (.error (.storage e), w) := rfl

@[simp] theorem outcome_putScript (file : String) (s : Script) (w : Workspace σ τ) :
    (putScript file s : Action σ τ Unit).outcome w =
      (.ok (), { w with scripts := w.scripts.insert file s }) := rfl

@[simp] theorem outcome_post (box : Mailbox) (m : Message) (w : Workspace σ τ) :
    (post box m : Action σ τ Bool).outcome w =
      match w.mail[box]? with
      | none => (.ok false, w)
      | some c => (.ok (c.send m).1, { w with mail := w.mail.set box (c.send m).2 }) := by
  rw [post, Fallible.outcome_modifyGet]
  cases w.mail[box]? <;> rfl

variable (c : Compiler)

theorem decompiled_cases (file : String) (binary : Binary) (w : Workspace σ τ) :
    (∃ views, (decompiled c file binary : Action σ τ _).outcome w = (.ok views, w) ∧
        ∀ p, c.decompile p binary = .ok (views.get p)) ∨
      ∃ e, (decompiled c file binary : Action σ τ _).outcome w = (.error (.storage e), w) := by
  unfold decompiled
  cases hp : c.decompile .primary binary with
  | error e => exact .inr ⟨_, rfl⟩
  | ok primary =>
    cases hd : c.decompile .derived binary with
    | error e => exact .inr ⟨_, rfl⟩
    | ok derived =>
      refine .inl ⟨⟨primary, derived⟩, rfl, fun p ↦ ?_⟩
      cases p
      · exact hp
      · exact hd

variable [Archive σ]

/-- `s` is what a load of a file gives. -/
def Loads (a : σ) (file : String) (s : Script) : Prop :=
  ∃ bytes views, (Archive.read file a).1 = .ok bytes ∧
    (∀ p, c.decompile p ⟨bytes⟩ = .ok (views.get p)) ∧ s = .ofBinary file ⟨bytes⟩ views

inductive Finds (w : Workspace σ τ) (file : String) (s : Script) : Prop
  | tracked : w.scripts[file]? = some s → Finds w file s
  | loaded : w.scripts[file]? = none → Loads c w.archive file s → Finds w file s

/-- All that finding a script may change, its being tracked apart. -/
structure Peeks (w w' : Workspace σ τ) : Prop where
  archive : Reads w.archive w'.archive
  store : w'.store = w.store
  listeners : w'.listeners = w.listeners
  mail : w'.mail = w.mail
  log : w.log <+: w'.log

theorem Peeks.refl (w : Workspace σ τ) : Peeks w w := ⟨.not, rfl, rfl, rfl, List.prefix_refl _⟩

theorem load_cases (file : String) (w : Workspace σ τ) :
    (∃ s w', (load c file : Action σ τ _).outcome w = (.ok s, w') ∧ Loads c w.archive file s ∧
        Peeks w w' ∧ w'.scripts = w.scripts) ∨
      ∃ e w', (load c file : Action σ τ _).outcome w = (.error (.storage e), w') ∧ Peeks w w' ∧
        w'.scripts = w.scripts := by
  have hpeek : Peeks w { w with archive := (Archive.read file w.archive).2 } :=
    ⟨.read file, rfl, rfl, rfl, List.prefix_refl _⟩
  simp only [load, Fallible.outcome_bind, outcome_askArchive]
  cases hr : (Archive.read file w.archive).1 with
  | error e => exact .inr ⟨e, _, rfl, hpeek, rfl⟩
  | ok bytes =>
    simp only [outcome_demand_ok]
    obtain ⟨views, ho, hv⟩ | ⟨e, ho⟩ := decompiled_cases c file ⟨bytes⟩
      { w with archive := (Archive.read file w.archive).2 }
    · simp only [ho, outcome_note, Fallible.outcome_pure]
      exact .inl ⟨_, _, rfl, ⟨bytes, views, hr, hv, rfl⟩,
        ⟨.read file, rfl, rfl, rfl, List.prefix_append _ _⟩, rfl⟩
    · simp only [ho]
      exact .inr ⟨e, _, rfl, hpeek, rfl⟩

/-- A script is found, and tracked from then on, or the request ends here. -/
theorem script_cases (file : String) (w : Workspace σ τ) :
    (∃ s w', (script c file : Action σ τ _).outcome w = (.ok s, w') ∧ Finds c w file s ∧
        Peeks w w' ∧ w'.scripts = w.scripts.insert file s) ∨
      ∃ e w', (script c file : Action σ τ _).outcome w = (.error (.storage e), w') ∧
        w.scripts[file]? = none ∧ Peeks w w' ∧ w'.scripts = w.scripts := by
  simp only [script, Fallible.outcome_bind, Fallible.outcome_get]
  cases ht : w.scripts[file]? with
  | some s => exact .inl ⟨s, w, rfl, .tracked ht, .refl w, (insert_of_getElem? ht).symm⟩
  | none =>
    simp only [Fallible.outcome_bind]
    obtain ⟨s, w', ho, hl, hp, hs⟩ | ⟨e, w', ho, hp, hs⟩ := load_cases c file w
    · simp only [ho, outcome_putScript, Fallible.outcome_pure]
      exact .inl ⟨s, _, rfl, .loaded ht hl,
        ⟨hp.archive, hp.store, hp.listeners, hp.mail, hp.log⟩, by rw [hs]⟩
    · simp only [ho]
      exact .inr ⟨e, w', rfl, trivial, hp, hs⟩

variable {c} {file : String} {w w' : Workspace σ τ}

theorem script_tracked {s : Script} (ht : w.scripts[file]? = some s) :
    (script c file : Action σ τ _).outcome w = (.ok s, w) := by
  simp only [script, Fallible.outcome_bind, Fallible.outcome_get, ht, Fallible.outcome_pure]

theorem Finds.outcome {s : Script} (h : Finds c w file s) :
    ((script c file : Action σ τ _).outcome w).1 = .ok s := by
  cases h with
  | tracked ht => rw [script_tracked ht]
  | loaded hn hl =>
    obtain ⟨bytes, views, hr, hv, rfl⟩ := hl
    have hp := hv .primary
    have hd := hv .derived
    simp only [script, load, decompiled, Fallible.outcome_bind, Fallible.outcome_get, hn,
      outcome_askArchive, hr, outcome_demand_ok, hp, hd, Fallible.outcome_pure, outcome_note,
      outcome_putScript]
    rfl

theorem Finds.unique {s t : Script} (hs : Finds c w file s) (ht : Finds c w file t) : s = t := by
  have h := hs.outcome.symm.trans ht.outcome
  exact Except.ok.inj h

/-- A property that all tracked scripts have, and all scripts right after their load, is found with
every script. -/
theorem Finds.property {P : Script → Prop} {s : Script} (hs : Finds c w file s)
    (hload : ∀ file binary views, P (.ofBinary file binary views))
    (hw : ∀ (file : String) s, w.scripts[file]? = some s → P s) : P s := by
  cases hs with
  | tracked ht => exact hw _ _ ht
  | loaded _ hl =>
    obtain ⟨bytes, views, -, -, rfl⟩ := hl
    exact hload _ _ _

theorem script_ok {s : Script} (h : (script c file : Action σ τ _).outcome w = (.ok s, w')) :
    Finds c w file s ∧ Peeks w w' ∧ w'.scripts = w.scripts.insert file s := by
  obtain ⟨s', w'', ho, hf, hp, hs⟩ | ⟨e, w'', ho, -⟩ := script_cases c file w
  · rw [h] at ho
    cases ho
    exact ⟨hf, hp, hs⟩
  · rw [h] at ho
    cases ho

theorem script_error {f : Fault} (h : (script c file : Action σ τ _).outcome w = (.error f, w')) :
    w.scripts[file]? = none ∧ Peeks w w' ∧ w'.scripts = w.scripts := by
  obtain ⟨s', w'', ho, -⟩ | ⟨e, w'', ho, hn, hp, hs⟩ := script_cases c file w
  · rw [h] at ho
    cases ho
  · rw [h] at ho
    cases ho
    exact ⟨hn, hp, hs⟩

end Workspace

end ScriptBreakpoints
