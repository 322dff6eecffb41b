import ScriptBreakpoints.Proofs.Mirroring

namespace ScriptBreakpoints

open Workspace

def Buffer.Presents (v : View) (b : Buffer) : Prop :=
  ∃ markers, b = { Buffer.ofView v with markers }

theorem Buffer.Presents.remark {v : View} {b b' : Buffer} (h : b.Presents v)
    (hb : ∃ markers, b' = { b with markers }) : b'.Presents v := by
  obtain ⟨markers, rfl⟩ := h
  obtain ⟨markers', rfl⟩ := hb
  exact ⟨markers', rfl⟩

theorem Script.hasPending_before {s : Script} {h : Happening} (hr : s.reloads h = false)
    (hp : (s.after h).hasPending = false) : s.hasPending = false := by
  by_cases hsave : h.isSave = false
  · rwa [hasPending_after hr hsave] at hp
  · cases h with
    | saved binary views => exact Bool.noConfusion ((s.hasPending_save binary views).symm.trans hp)
    | _ => exact absurd rfl hsave

theorem Request.reloads_posts {c : Compiler} {r : Request} {s : Script}
    (hr : r.promotes s = false) {m : Message} (hm : r.posts c s = some m) : m.reload? = none := by
  cases m with
  | reload e => exact Bool.noConfusion ((r.promotes_of_posts c s hm).symm.trans hr)
  | _ => rfl

namespace Aspect

variable {c : Compiler} {r : Request} {a : Aspect} {s : Script}

theorem reloads_grant (hreach : a.reach = 1) : Message.reloads (a.grant c r s).mail =
    Message.reloads a.mail ++
      if r.promotes s then [(s.after (r.turn c s)).reload] else [] := by
  rw [grant, Message.reloads_append, hreach]
  congr 1
  split
  · next hr => rw [r.posts_of_promotes c s hr]; rfl
  · next hr =>
    cases hm : r.posts c s with
    | none => rfl
    | some m =>
      exact Message.reloads_replicate (Request.reloads_posts (Bool.not_eq_true _ ▸ hr) hm) 1

end Aspect

namespace OpenScript

variable {o o' : OpenScript} {t : Script} {a a' : Aspect} {as : List Address} {c : Compiler}
  {file : String}

/-- The projection that is not edited shows the active view of the script `t`, unless there is
still a reload to be handled or to come. -/
structure Generates (t : Script) (o : OpenScript) (a : Aspect) : Prop where
  script : a.script = some t
  reach : a.reach = 1
  unread : ∀ e ∈ (Message.reloads a.mail).getLast?, e.views = t.active
  generated : Message.reloads a.mail = [] → t.hasPending = false → ∀ p ≠ o.authority,
    (o.buffers.get p).Presents (t.active.get p)

namespace Generates

theorem remark (h : o.Generates t a) (hauthority : o'.authority = o.authority)
    (hb : ∀ p ≠ o.authority, ∃ markers, o'.buffers.get p = { o.buffers.get p with markers }) :
    o'.Generates t a := by
  refine ⟨h.script, h.reach, h.unread, fun hnone hpending p hp ↦ ?_⟩
  rw [hauthority] at hp
  exact (h.generated hnone hpending p hp).remark (hb p hp)

theorem setBuffer (h : o.Generates t a) (b : Buffer) : (o.setBuffer b).Generates t a := by
  refine h.remark rfl fun p hp ↦ ?_
  rw [OpenScript.setBuffer, Dual.get_set, if_neg hp]
  exact ⟨_, rfl⟩

theorem indifferent : Indifferent fun o a ↦ o.Generates t a where
  remark h hauthority _ hb := h.remark hauthority fun p _ ↦ hb p
  told h hscript hreach hmail := by
    refine ⟨hscript.trans h.script, hreach.trans h.reach, ?_, ?_⟩ <;> rw [hmail]
    · exact h.unread
    · exact h.generated
  follow _ _ h := h.setBuffer _

theorem asked {r : Request} (h : o.Generates t a) (ha : a.Asked c r a') :
    ∃ t, o.Generates t a' := by
  cases ha with
  | ignored => exact ⟨t, h⟩
  | found hs =>
    obtain rfl := hs.unique h.script
    exact ⟨_, indifferent.told h h.script.symm rfl rfl⟩
  | @granted s hs =>
    obtain rfl := hs.unique h.script
    have hmail := Aspect.reloads_grant (c := c) (r := r) (s := s) h.reach
    have hreloads := r.reloads_turn c s
    cases hp : r.promotes s with
    | true =>
      rw [hp, if_pos rfl] at hmail
      refine ⟨s.after (r.turn c s), rfl, h.reach, fun e he ↦ ?_, fun hnone ↦ ?_⟩
      · rw [hmail, List.getLast?_concat] at he
        exact Option.some.inj he ▸ rfl
      · rw [hmail] at hnone
        exact absurd hnone (by simp)
    | false =>
      -- without a reload the active views stay, and so does what is pending
      rw [hp] at hmail hreloads
      rw [if_neg Bool.false_ne_true, List.append_nil] at hmail
      refine ⟨s.after (r.turn c s), rfl, h.reach, ?_, ?_⟩ <;>
        rw [hmail, Script.active_after hreloads]
      · exact h.unread
      · exact fun hnone hpending ↦
          h.generated hnone (Script.hasPending_before hreloads hpending)

theorem passes (h : o.Generates t a) (ha : a.Passes c file a') : ∃ t, o.Generates t a' := by
  induction ha with
  | refl => exact ⟨t, h⟩
  | ask _ _ hasked ih =>
    obtain ⟨t, h⟩ := ih
    obtain ⟨t, h⟩ := h.asked hasked
    exact ⟨t, indifferent.told h rfl rfl rfl⟩

theorem opened (t : Script) (hnone : Message.reloads a.mail = []) :
    ((OpenScript.ofScript t).place as).Generates t { a with script := some t, reach := 1 } := by
  refine indifferent.place ⟨rfl, rfl, fun e he ↦ ?_, fun _ hpending p _ ↦ ?_⟩
  · rw [hnone] at he
    cases he
  · rw [get_ofScript, t.hasPending_eq_false.1 hpending p, Script.get_active]
    exact ⟨∅, rfl⟩

theorem reload {e : Reload} {mail : List Message} (h : o.Generates t a)
    (hmail : a.mail = .reload e :: mail) : (o.reload e).Generates t { a with mail } := by
  have hunread := h.unread
  rw [hmail, Message.reloads_cons, List.getLast?_cons] at hunread
  refine ⟨h.script, h.reach, fun e' he' ↦ ?_, fun hnone _ p hp ↦ ?_⟩
  · rw [Option.mem_def.1 he'] at hunread
    exact hunread e' rfl
  · rw [show Message.reloads mail = [] from hnone] at hunread
    rw [get_reload, if_neg (show ¬p = e.authority from hp), hunread e rfl]
    exact ⟨∅, rfl⟩

theorem hear {m : Message} {mail : List Message} (h : o.Generates t a)
    (hmail : a.mail = m :: mail) : (o.hear as m).Generates t { a with mail } := by
  cases m with
  | reload e => exact indifferent.place (h.reload hmail)
  | _ => exact indifferent.hear h hmail rfl

theorem stored {τ : Type} [BreakpointStore τ] {store store' : τ}
    {result : Except Fault (Option Readiness)} (h : o.Generates t a)
    (hw : Shows.Stored c file o a t store store' result o' a') : ∃ t, o'.Generates t a' := by
  cases hw with
  | unmodified => exact ⟨t, h⟩
  | failed => exact ⟨t, h⟩
  | unrestored => exact ⟨t, indifferent.told h rfl rfl rfl⟩
  | @saved compiled other _ hc hd =>
    have hpasses : a.Passes c file (a.store t compiled.binary
        (savedViews o.authority o.buffer.text compiled.map other)
        (compiled.map.breakpointsOn o.buffer.markerLines)) := .store h.script hc hd
    obtain ⟨t', h'⟩ := h.passes hpasses
    exact ⟨t', (h'.setBuffer _).remark rfl fun p _ ↦ ⟨_, rfl⟩⟩

end Generates

end OpenScript

inductive Generated : Option OpenScript → Aspect → Prop
  | closed {a : Aspect} : a.reach = 0 → Message.reloads a.mail = [] → Generated none a
  | opened {o : OpenScript} {a : Aspect} {t : Script} : o.Generates t a → Generated (some o) a

theorem Generated.enduring (τ : Type) [BreakpointStore τ] (c : Compiler) (file : String) :
    Enduring τ c file (fun a ↦ Message.reloads a.mail = []) Generated where
  unborn hreach hmail := .closed hreach (by rw [hmail]; rfl)
  tracked h := by
    cases h with
    | opened h => rw [h.script]; rfl
  passes h ha := by
    cases h with
    | closed hreach hnone =>
      exact .closed (ha.reach.trans hreach) (by rw [ha.unheard hreach]; exact hnone)
    | opened h =>
      obtain ⟨t, h⟩ := h.passes ha
      exact .opened h
  hears as h hmail := by
    cases h with
    | closed hreach hnone =>
      rw [hmail, Message.reloads, List.filterMap_eq_nil_iff] at hnone
      exact .closed hreach (List.filterMap_eq_nil_iff.2 fun m hm ↦ hnone m (.tail _ hm))
    | opened h => exact .opened (h.hear hmail)
  opens s h := by
    cases h with
    | closed _ hnone => exact .opened (.opened s hnone)
  closes h hcalm hreach hmail := by
    refine .closed hreach ?_
    rw [hmail]
    cases h with
    | closed _ hnone => exact hnone
    | opened => exact hcalm rfl
  works h hw := by
    cases h with
    | opened h => exact .opened (OpenScript.Generates.indifferent.worked h hw)
  saves h hs hw := by
    cases h with
    | opened h =>
      rw [h.script] at hs
      cases hs
      obtain ⟨t, h⟩ := h.stored hw
      exact .opened h

namespace Session

variable {σ τ : Type} [Archive σ] [BreakpointStore τ] {c : Compiler} {s : Session σ τ} {i : Nat}
  {file : String} {o : OpenScript}

/-- An editor that closes a script has handled its mail. It may be asked to close one at other times
as well, as long as the user declines. -/
def ClosesRead (c : Compiler) (s : Session σ τ) : Move → Prop
  | .editor i (.closeScript file confirm) => s.shown i file ≠ none →
    (move c (.editor i (.closeScript file confirm)) s).2.shown i file = none → s.inbox i = []
  | _ => True

variable [LawfulStore τ]

/-- Whatever moves are made, if editors close scripts only when they have handled their mail: an
editor that has handled its mail shows the active view of a script in the projection that is not
edited, as long as no save waits for its reload. -/
theorem generated_view_is_active (c : Compiler) (archive : σ) (store : τ) {ms : List Move}
    (hms : Along c (ClosesRead c) (start archive store) ms)
    (hs : s = (start archive store).after c ms) (hinbox : s.inbox i = [])
    (ho : s.shown i file = some o) :
    ∃ t, s.workspace.scripts[file]? = some t ∧ (t.hasPending = false → ∀ p ≠ o.authority,
      (o.buffers.get p).modified = false ∧
        (o.buffers.get p).text = (t.active.get p).text ∧
        (o.buffers.get p).marks = .ofMap (t.active.get p).map ∧
        (o.buffers.get p).provisional = none) := by
  have hsound := sound_after hs
  obtain ⟨a, hi, hmail⟩ := hsound.scene_shown ho
  have hcalm : Along c (ClosesWhere c file fun a ↦ Message.reloads a.mail = [])
      (start archive store) ms := by
    refine hms.imp fun s m hread i confirm o a hm hi hclosed ↦ ?_
    subst hm
    have hempty : s.inbox i = [] := hread (by rw [hi.shown]; exact Option.some_ne_none o) hclosed
    rw [hi.mail, hempty]
    rfl
  cases endures_after (Generated.enduring _ c file) hcalm hs hi with
  | @opened _ _ t h =>
    refine ⟨t, hi.script.symm.trans h.script, fun hpending p hp ↦ ?_⟩
    have hnone : Message.reloads a.mail = [] := by
      rw [hmail, hinbox]
      rfl
    obtain ⟨markers, hb⟩ := h.generated hnone hpending p hp
    rw [hb]
    exact ⟨rfl, Buffer.text_ofView, rfl, rfl⟩

/-- One editor saves, and the other one hears of it and is closed and opened again. -/
theorem generated_view_is_active_after_save :
    ∃ s o t, s = (start (ArchiveMap.ofList [("a", Utf8.encode "routine 5\n    a\n")])
        (⟨∅, ()⟩ : Ledger Unit)).after Listing.compiler
        [.newEditor, .newEditor, .editor 0 (.openScript "a"), .editor 1 (.openScript "a"),
          .editor 1 (.closeScript "a" true), .editor 1 (.openScript "a"),
          .editor 0 (.insertLines "a" .primary 1 ["    b"]), .editor 0 (.save "a"),
          .editor 1 .runPending] ∧
      s.shown 1 "a" = some o ∧ s.workspace.scripts["a"]? = some t ∧
      (t.active.get .derived).text = "// derived view\nroutine 5\n    b\n    a\n" ∧
      (o.buffers.get .derived).modified = false ∧
      (o.buffers.get .derived).text = (t.active.get .derived).text ∧
      (o.buffers.get .derived).marks = .ofMap (t.active.get .derived).map ∧
      (o.buffers.get .derived).provisional = none := by
  obtain ⟨s₀, hs₀⟩ : ∃ s₀, s₀ = (start (ArchiveMap.ofList
      [("a", Utf8.encode "routine 5\n    a\n")]) (⟨∅, ()⟩ : Ledger Unit)).after Listing.compiler
      [.newEditor, .newEditor, .editor 0 (.openScript "a"), .editor 1 (.openScript "a")] :=
    ⟨_, rfl⟩
  obtain ⟨s, hs⟩ : ∃ s, s = (start (ArchiveMap.ofList [("a", Utf8.encode "routine 5\n    a\n")])
      (⟨∅, ()⟩ : Ledger Unit)).after Listing.compiler
      [.newEditor, .newEditor, .editor 0 (.openScript "a"), .editor 1 (.openScript "a"),
        .editor 1 (.closeScript "a" true), .editor 1 (.openScript "a"),
        .editor 0 (.insertLines "a" .primary 1 ["    b"]), .editor 0 (.save "a"),
        .editor 1 .runPending] := ⟨_, rfl⟩
  have hread : (s₀.inbox 1).isEmpty = true := by
    rw [hs₀]
    decide +kernel
  have hinbox : (s.inbox 1).isEmpty = true := by
    rw [hs]
    decide +kernel
  have hshown : (s.shown 1 "a").map (·.authority) = some .primary := by
    rw [hs]
    decide +kernel
  have hscript : s.workspace.scripts["a"]?.map
      (fun t ↦ (t.hasPending, (t.active.get .derived).text)) =
        some (false, "// derived view\nroutine 5\n    b\n    a\n") := by
    rw [hs]
    decide +kernel
  have hms : Along Listing.compiler (ClosesRead Listing.compiler)
      (start (ArchiveMap.ofList [("a", Utf8.encode "routine 5\n    a\n")]) (⟨∅, ()⟩ : Ledger Unit))
      [.newEditor, .newEditor, .editor 0 (.openScript "a"), .editor 1 (.openScript "a"),
        .editor 1 (.closeScript "a" true), .editor 1 (.openScript "a"),
        .editor 0 (.insertLines "a" .primary 1 ["    b"]), .editor 0 (.save "a"),
        .editor 1 .runPending] := by
    refine ⟨trivial, trivial, trivial, trivial, fun _ _ ↦ ?_, trivial, trivial, trivial, trivial,
      trivial⟩
    rw [hs₀] at hread
    exact List.isEmpty_iff.1 hread
  obtain ⟨o, ho, hauthority⟩ := Option.map_eq_some_iff.1 hshown
  obtain ⟨t, ht, hactive⟩ := generated_view_is_active Listing.compiler _ _ hms hs
    (List.isEmpty_iff.1 hinbox) ho
  rw [ht, Option.map_some, Option.some_inj, Prod.mk.injEq] at hscript
  refine ⟨s, o, t, hs, ho, ht, hscript.2, hactive hscript.1 .derived ?_⟩
  rw [hauthority]
  decide

end Session

end ScriptBreakpoints
