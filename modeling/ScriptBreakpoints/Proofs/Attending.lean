import ScriptBreakpoints.Proofs.Enduring

namespace ScriptBreakpoints

open Fallible Workspace

/-- Markers stand on the lines of their marks. Only before a reload there can be markers without
marks, those of a text that is newer than what the engine executes. -/
def Buffer.Anchored (waiting : Bool) (b : Buffer) : Prop :=
  ∀ x line, b.markers[x]? = some line →
    b.marks.line? x = some line ∨ waiting = true ∧ b.marks.line? x = none

namespace Buffer.Anchored

variable {waiting : Bool} {b : Buffer} {x : Address}

theorem await (h : b.Anchored waiting) : b.Anchored true :=
  fun x line hx ↦ (h x line hx).imp_right fun hnone ↦ ⟨rfl, hnone.2⟩

theorem showMarker (h : b.Anchored waiting) : (b.showMarker x).Anchored waiting := by
  intro y line hy
  rw [marks_showMarker]
  rw [markers_showMarker] at hy
  split at hy
  · next heq =>
    subst heq
    obtain hy | ⟨-, hy⟩ := Option.or_eq_some_iff.1 hy
    · exact .inl hy
    · exact h y line hy
  · exact h y line hy

theorem hideMarker (h : b.Anchored waiting) : (b.hideMarker x).Anchored waiting := by
  intro y line hy
  rw [markers_hideMarker] at hy
  split at hy
  · cases hy
  · exact h y line hy

theorem follow (h : b.Anchored waiting) (e : LineEdit) (lines : List String) :
    ({ b with lines }.follow e).Anchored waiting := by
  intro x line hx
  rw [markers_follow] at hx
  obtain ⟨old, hold, hline⟩ := Option.bind_eq_some_iff.1 hx
  rw [Buffer.follow, Marks.line?_edit]
  refine (h x old hold).imp (fun hmark ↦ ?_) (And.imp_right fun hnone ↦ ?_)
  · rw [hmark, Option.map_some, hline, Option.getD_some]
  · rw [hnone, Option.map_none]

end Buffer.Anchored

namespace OpenScript

variable {o : OpenScript} {x : Address} {as : List Address}

def Anchored (o : OpenScript) : Prop := ∀ p, (o.buffers.get p).Anchored o.waiting

namespace Anchored

theorem showMarker (h : o.Anchored) : (o.showMarker x).Anchored := by
  intro p
  rw [OpenScript.showMarker, Dual.get_map]
  exact (h p).showMarker

theorem hideMarker (h : o.Anchored) : (o.hideMarker x).Anchored := by
  intro p
  rw [OpenScript.hideMarker, Dual.get_map]
  exact (h p).hideMarker

theorem setBuffer {b : Buffer} (h : o.Anchored) (hb : b.Anchored o.waiting) :
    (o.setBuffer b).Anchored := by
  intro p
  rw [OpenScript.setBuffer, Dual.get_set]
  split
  · exact hb
  · exact h p

theorem saved (h : o.Anchored) (m : SourceMap) : (o.saved m).Anchored := by
  intro p
  rw [OpenScript.saved, OpenScript.setBuffer, Dual.get_set]
  split
  · exact (h o.authority).await
  · exact (h p).await

theorem place (hclear : ∀ p, (o.buffers.get p).markers = ∅)
    (hmarks : ∀ p, (o.buffers.get p).table o.waiting = (o.buffers.get p).marks ∨
      o.waiting = true ∧ (o.buffers.get p).marks = .empty) : (o.place as).Anchored := by
  intro p x line hx
  rw [markers_place, hclear, Std.ExtTreeMap.getElem?_empty, Option.or_none] at hx
  obtain ⟨markers, hb⟩ := o.buffer_place as p
  rw [hb]
  split at hx
  · obtain htable | ⟨hwaiting, hempty⟩ := hmarks p
    · rw [htable] at hx
      exact .inl hx
    · refine .inr ⟨hwaiting, ?_⟩
      rw [hempty]
      rfl
  · cases hx

theorem opened (s : Script) (as : List Address) : ((OpenScript.ofScript s).place as).Anchored := by
  refine place (fun p ↦ ?_) fun p ↦ ?_
  · simp only [ofScript, Dual.get_map]
    cases (s.slots.get p).pending <;> rfl
  · simp only [ofScript, Dual.get_map]
    cases hp : (s.slots.get p).pending with
    | none =>
      refine .inl ?_
      rw [Buffer.table]
      exact ite_self _
    | some v =>
      refine .inr ⟨?_, rfl⟩
      rw [← Bool.not_eq_false, Script.hasPending_eq_false]
      intro hnone
      rw [hnone p] at hp
      cases hp

theorem reload (e : Reload) : ((o.reload e).place as).Anchored :=
  place (markers_reload e o) fun _ ↦ .inl rfl

theorem hear (h : o.Anchored) (m : Message) : (o.hear as m).Anchored := by
  cases m with
  | reload e => exact reload e
  | added f x => exact h.showMarker
  | removed f x => exact h.hideMarker
  | shutdown => exact h

end Anchored

end OpenScript

/-- An editor listens to the scripts that it has open, and to no others. -/
inductive Attended : Option OpenScript → Aspect → Prop
  | closed {a : Aspect} : a.reach = 0 → Attended none a
  | opened {o : OpenScript} {a : Aspect} : a.reach = 1 → a.script.isSome → o.Anchored →
      Attended (some o) a

namespace Attended

variable {v : Option OpenScript} {o o' : OpenScript} {a a' : Aspect} {file : String}
  {c : Compiler} {r : EditorRequest} {xs : List Address}

theorem tracked (h : Attended (some o) a) : ∃ t, a.script = some t := by
  cases h with
  | opened _ ht => exact Option.isSome_iff_exists.1 ht

theorem passes (h : Attended v a) (ha : a.Passes c file a') : Attended v a' := by
  cases h with
  | closed hreach => exact .closed (ha.reach.trans hreach)
  | opened hreach hs hanchored =>
    exact .opened (ha.reach.trans hreach) (ha.tracked hs) hanchored

theorem hear (h : Attended v a) (as : List Address) (m : Message) (mail : List Message) :
    Attended (v.map (·.hear as m)) { a with mail } := by
  cases h with
  | closed hreach => exact .closed hreach
  | opened hreach hs hanchored => exact .opened hreach hs (hanchored.hear m)

theorem disarmAll (h : Attended (some o) a) :
    Attended (some (xs.foldl (fun o x ↦ o.hideMarker x) o))
      (xs.foldl (fun a x ↦ a.disarm file x) a) := by
  refine OpenScript.foldl_hide (P := fun o a ↦ Attended (some o) a) file (fun o a x h ↦ ?_) xs h
  cases h with
  | opened hreach hs hanchored => exact .opened hreach hs hanchored.hideMarker

theorem worked {ok : Prop} (h : Attended (some o) a) (hw : Worked file o a r ok o' a') :
    Attended (some o') a' := by
  have hopened := h
  cases h with
  | opened hreach hs hanchored =>
    cases hw with
    | still => exact .opened hreach hs hanchored
    | @edited edit lines _ _ _ _ =>
      refine disarmAll (.opened hreach hs ?_)
      exact hanchored.setBuffer ((hanchored o.authority).follow edit lines)
    | toggled _ _ hclicked =>
      cases hclicked with
      | nothing => exact hopened
      | hidden => exact hopened.disarmAll
      | shown => exact .opened hreach hs hanchored.showMarker

variable {τ : Type} [BreakpointStore τ] {s : Script} {t t' : τ}

theorem stored {result : Except Fault (Option Readiness)} (h : Attended (some o) a)
    (hw : Shows.Stored c file o a s t t' result o' a') : Attended (some o') a' := by
  cases h with
  | opened hreach hs hanchored =>
    cases hw with
    | unmodified => exact .opened hreach hs hanchored
    | failed => exact .opened hreach hs hanchored
    | unrestored => exact .opened hreach hs hanchored
    | @saved compiled =>
      rw [Aspect.store]
      split
      · exact .opened hreach rfl (hanchored.saved compiled.map)
      · exact .opened hreach rfl (hanchored.saved compiled.map)

theorem enduring (τ : Type) [BreakpointStore τ] (c : Compiler) (file : String) :
    Enduring τ c file (fun _ ↦ True) Attended where
  unborn hreach _ := .closed hreach
  tracked h := by
    cases h with
    | opened _ hs _ => exact hs
  passes h ha := h.passes ha
  hears as h _ := h.hear as _ _
  opens s _ := .opened rfl rfl (.opened s _)
  closes _ _ hreach _ := .closed hreach
  works h hw := h.worked hw
  saves h _ hw := h.stored hw

end Attended

namespace Session

variable {σ τ : Type} [Archive σ] [BreakpointStore τ] [LawfulStore τ] {c : Compiler}
  {s : Session σ τ} {i : Nat} {file : String} {v : Option OpenScript} {a : Aspect}

theorem Scene.attended_move (hs : s.Sound) (hi : s.Scene i file v a) (h : Attended v a)
    (m : Move) : ∃ v' a', (move c m s).2.Scene i file v' a' ∧ Attended v' a' :=
  hi.endures (Attended.enduring _ c file) hs h fun _ _ _ _ _ _ _ ↦ trivial

/-- Editors attend to what they have open in every session that can be reached. -/
theorem attended_after {archive : σ} {store : τ} {ms : List Move}
    (hs : s = (start archive store).after c ms) (hi : s.Scene i file v a) : Attended v a :=
  endures_after (Attended.enduring _ c file) (.of_forall (fun _ _ _ _ _ _ _ _ _ ↦ trivial) _ _)
    hs hi

theorem tracked_after {archive : σ} {store : τ} {ms : List Move} {o : OpenScript}
    (hs : s = (start archive store).after c ms) (ho : s.shown i file = some o) :
    ∃ t, s.workspace.scripts[file]? = some t := by
  obtain ⟨a, hi, -⟩ := (sound_after hs).scene_shown ho
  rw [← hi.script]
  exact (attended_after hs hi).tracked

end Session

end ScriptBreakpoints
