import ScriptBreakpoints.Compiler.Listing
import ScriptBreakpoints.Proofs.Moves
import ScriptBreakpoints.Proofs.Refusals
import ScriptBreakpoints.Proofs.Replay

namespace ScriptBreakpoints

open Fallible Workspace

section Own

variable {σ τ : Type} [BreakpointStore τ] [LawfulStore τ] {c : Compiler}
  {sound clean : τ → Prop} {file : String} {box : Mailbox} {v : Option OpenScript}
  {o : OpenScript} {a : Aspect} {d : Desk σ τ} {s : Script}

theorem foldl_disarm (file : String) (xs : List Address) (a : Aspect) :
    (xs.foldl (fun a x ↦ a.disarm file x) a).script = a.script ∧
      (xs.foldl (fun a x ↦ a.disarm file x) a).reach = a.reach := by
  induction xs generalizing a with
  | nil => exact ⟨rfl, rfl⟩
  | cons x xs ih => exact ih (a.disarm file x)

/-- Breakpoints that are removed one after the other are exceptions until it is their turn. -/
theorem Agrees.hideAll {xs : List Address} (h : Agrees xs o a) (hreach : a.reach = 1) :
    Agrees [] (xs.foldl (fun o x ↦ o.hideMarker x) o)
      (xs.foldl (fun a x ↦ a.disarm file x) a) := by
  induction xs generalizing o a with
  | nil => exact h
  | cons x xs ih =>
    have hmail : (a.disarm file x).mail = a.mail ++ [.removed file x] := by
      rw [Aspect.disarm, hreach]
      rfl
    refine ih (Agrees.hideMarker (h.news hmail rfl) (fun hx ↦ ?_) hmail) hreach
    exact (mem_erase_iff.1 hx).1 rfl

namespace Settled

theorem hidden {xs : List Address} (hreach : a.reach = 1) (hs : a.script = some s)
    (hagrees : s.hasPending = false → Agrees xs o a) :
    Settled (some (xs.foldl (fun o x ↦ o.hideMarker x) o))
      (xs.foldl (fun a x ↦ a.disarm file x) a) := by
  obtain ⟨hscript, hreach'⟩ := foldl_disarm file xs a
  exact .opened (hreach'.trans hreach) (hscript.trans hs) fun hp ↦ (hagrees hp).hideAll hreach

variable (hd : Shows file box v a d) (h : Settled v a)

include hd h

theorem unopened {α : Type} {k : OpenScript → EditorAction σ τ α} (hv : v = none) :
    ∃ v' a', Shows file box v' a' ((Editor.opened file >>= k).outcome d).2 ∧ Settled v' a' := by
  subst hv
  refine ⟨none, a, ?_, h⟩
  simp only [outcome_bind, Editor.opened_none hd.view]
  exact hd

variable [Archive σ]

theorem openScript : ∃ v' a', Shows file box v' a' ((Editor.openScript c file).outcome d).2 ∧
    Settled v' a' := by
  cases h with
  | closed hreach hmail =>
    obtain ⟨result, d', v', a', ho, hd', ⟨rfl, hreach', hmail'⟩ | ⟨s, rfl, rfl⟩⟩ :=
      hd.openScript (c := c)
    · rw [ho]
      exact ⟨none, a', hd', .closed hreach' (hmail'.trans hmail)⟩
    · rw [ho]
      refine ⟨_, _, hd', .opened rfl rfl fun hp ↦ ?_⟩
      exact Agrees.of_place (a := { a with script := some s, reach := 1 }) (fun p ↦ by
        simp only [OpenScript.ofScript, Dual.get_map]
        split <;> rfl) hp hmail
  | @opened o _ s hreach hs hagrees =>
    rw [Editor.openScript_open hd.view]
    exact ⟨some o, a, hd, .opened hreach hs hagrees⟩

theorem closeScript (confirm : Bool) (hmail : a.mail = []) : ∃ v' a',
    Shows file box v' a' ((Editor.closeScript c file confirm).outcome d).2 ∧ Settled v' a' := by
  cases h with
  | closed hreach hmail => exact unopened hd (.closed hreach hmail) rfl
  | @opened o _ s hreach hs hagrees =>
    obtain ⟨result, d', v', a', ho, hd', hmail', ⟨rfl, hreach'⟩ | ⟨rfl, rfl | rfl⟩⟩ :=
      hd.closeScript (c := c) hs confirm
    · rw [ho]
      exact ⟨none, a', hd', .closed hreach' (hmail'.trans hmail)⟩
    · rw [ho]
      exact ⟨_, _, hd', .opened hreach hs hagrees⟩
    · rw [ho]
      refine ⟨_, _, hd', .opened hreach rfl fun hp ↦ ?_⟩
      rw [Script.hasPending_after rfl rfl] at hp
      exact (hagrees hp).congr rfl rfl

theorem toggle (projection : Projection) (line : Nat) : ∃ v' a',
    Shows file box v' a' ((Editor.toggle c file projection line).outcome d).2 ∧ Settled v' a' := by
  cases h with
  | closed hreach hmail => exact unopened hd (.closed hreach hmail) rfl
  | @opened o _ s hreach hs hagrees =>
    obtain ⟨result, d', o', a', ho, hclicked, hd'⟩ := hd.toggle (c := c) hs projection line
    rw [ho]
    refine ⟨_, _, hd', ?_⟩
    cases hclicked with
    | nothing => exact .opened hreach hs hagrees
    | hidden => exact hidden hreach hs fun hp ↦ (hagrees hp).mono fun _ hy ↦ nomatch hy
    | @shown x =>
      refine .opened hreach hs fun hp ↦ ?_
      have hmail : (a.arm file x).mail = a.mail ++ [.added file x] := by
        rw [Aspect.arm, hreach]
        rfl
      exact ((hagrees hp).news hmail rfl).showMarker hmail

omit [Archive σ] in
theorem insertLines (projection : Projection) (start : Nat) (lines : List String) : ∃ v' a',
    Shows file box v' a' ((Editor.insertLines file projection start lines :
      EditorAction σ τ Unit).outcome d).2 ∧ Settled v' a' := by
  cases h with
  | closed hreach hmail =>
    refine ⟨none, a, ?_, .closed hreach hmail⟩
    simp only [Editor.insertLines, Editor.editable, Editor.opened, outcome_bind, outcome_get,
      hd.view, outcome_throw]
    exact hd
  | @opened o _ s hreach hs hagrees =>
    obtain ⟨result, d', ho, hd'⟩ := hd.insertLines projection start lines
    rw [ho]
    refine ⟨_, _, hd', .opened hreach hs fun hp ↦ ?_⟩
    split
    · exact (hagrees hp).follow fun _ _ _ _ ↦ Option.some_ne_none _
    · exact hagrees hp

theorem deleteLines (hr : Remembers sound clean) (hsound : sound d.workspace.store)
    (projection : Projection) (start stop : Nat)
    (hclean :
      clean ((Editor.deleteLines c file projection start stop).outcome d).2.workspace.store) :
    ∃ v' a', Shows file box v' a'
      ((Editor.deleteLines c file projection start stop).outcome d).2 ∧ Settled v' a' := by
  cases h with
  | closed hreach hmail =>
    refine ⟨none, a, ?_, .closed hreach hmail⟩
    simp only [Editor.deleteLines, Editor.editable, Editor.opened, outcome_bind, outcome_get,
      hd.view, outcome_throw]
    exact hd
  | @opened o _ s hreach hs hagrees =>
    obtain ⟨result, d', o', a', ho, hd', ⟨-, rfl, rfl⟩ |
      ⟨-, removed, -, hall, hrefused, rfl, rfl⟩⟩ := hd.deleteLines (c := c) hs projection start stop
    · rw [ho]
      exact ⟨_, _, hd', .opened hreach hs hagrees⟩
    · rw [ho] at hclean ⊢
      have hok : result = .ok () := by
        by_contra hne
        obtain ⟨t, x, ht, hstore, hx⟩ := hrefused hne
        rw [hstore] at hclean
        exact hx (hr.remove file x (hr.sound_called hsound ht) hclean)
      have hremoved := hall hok
      refine ⟨_, _, hd', hidden hreach hs fun hp ↦ ?_⟩
      obtain ⟨-, hnothing⟩ | ⟨e, lines, -, hb, hmem⟩ := o.buffer.deleteLines_eq start stop
      · rw [hremoved, hnothing, OpenScript.setBuffer_buffer]
        exact (hagrees hp).mono (by simp)
      · rw [hb]
        refine (hagrees hp).follow fun y hy line hm hgone ↦ hy ?_
        rw [hremoved]
        exact (hmem y).2 ⟨line, hm, hgone⟩

theorem save (hr : Remembers sound clean) (hsound : sound d.workspace.store)
    (hclean : clean ((Editor.save c file).outcome d).2.workspace.store) :
    ∃ v' a', Shows file box v' a' ((Editor.save c file).outcome d).2 ∧ Settled v' a' := by
  cases h with
  | closed hreach hmail => exact unopened hd (.closed hreach hmail) rfl
  | @opened o _ s hreach hs hagrees =>
    obtain ⟨result, d', o', a', ho, hd', hstored⟩ := hd.save (c := c) hs
    rw [ho] at hclean ⊢
    refine ⟨_, _, hd', ?_⟩
    generalize d'.workspace.store = t' at hstored hclean
    cases hstored with
    | unmodified => exact .opened hreach hs hagrees
    | failed => exact .opened hreach hs hagrees
    | @unrestored _ _ _ previous _ ht hresync =>
      have hok := hr.resync file previous (hr.sound_called hsound ht)
      rw [hresync] at hok
      cases hok hclean
    | @saved compiled other =>
      rw [Aspect.store]
      cases hin : s.flags.inEngine with
      | true =>
        refine .opened hreach rfl fun hp ↦ ?_
        rw [Script.hasPending_save] at hp
        cases hp
      | false =>
        simp only [Bool.false_eq_true, if_false, hreach]
        exact .opened rfl rfl fun _ ↦ .of_reload a.mail rfl

omit [Archive σ] in
theorem takeLost : ∃ v' a', Shows file box v' a'
    ((Editor.takeLost file : EditorAction σ τ (List Address)).outcome d).2 ∧ Settled v' a' := by
  cases h with
  | closed hreach hmail =>
    refine ⟨none, a, ?_, .closed hreach hmail⟩
    simp only [Editor.takeLost, outcome_bind, outcome_get, hd.view, outcome_pure]
    exact hd
  | @opened o _ s hreach hs hagrees =>
    refine ⟨some { o with lost := [] }, a, ?_, .opened hreach hs fun hp ↦ hagrees hp⟩
    simp only [Editor.takeLost, outcome_bind, outcome_get, hd.view, Editor.put, outcome_modify,
      outcome_pure]
    exact hd.put _

/-- What an editor is asked about a script leaves it settled, unless it closes the script with mail
waiting or the store refuses something. -/
theorem perform (hr : Remembers sound clean) (hsound : sound d.workspace.store)
    {r : EditorRequest} (hfile : r.file? = some file)
    (hclose : ∀ confirm, r = .closeScript file confirm → a.mail = [])
    (hclean : clean ((r.perform c).outcome d).2.workspace.store) :
    ∃ v' a', Shows file box v' a' ((r.perform c).outcome d).2 ∧ Settled v' a' := by
  cases r with
  | openScript f =>
    cases hfile
    rw [EditorRequest.perform, outcome_bind_pure]
    exact openScript hd h
  | closeScript f confirm =>
    cases hfile
    rw [EditorRequest.perform, outcome_bind_pure]
    exact closeScript hd h confirm (hclose confirm rfl)
  | toggle f projection line =>
    cases hfile
    rw [EditorRequest.perform, outcome_bind_pure]
    exact toggle hd h projection line
  | insertLines f projection start lines =>
    cases hfile
    rw [EditorRequest.perform, outcome_bind_pure]
    exact insertLines hd h projection start lines
  | deleteLines f projection start stop =>
    cases hfile
    rw [EditorRequest.perform, outcome_bind_pure] at hclean ⊢
    exact deleteLines hd h hr hsound projection start stop hclean
  | save f =>
    cases hfile
    rw [EditorRequest.perform, outcome_bind_pure] at hclean ⊢
    exact save hd h hr hsound hclean
  | runPending => cases hfile
  | takeLost f =>
    cases hfile
    rw [EditorRequest.perform, outcome_bind_pure]
    exact takeLost hd h
  | _ =>
    rw [EditorRequest.perform_look c rfl d]
    exact ⟨v, a, hd, h⟩

end Settled

end Own

namespace Session

variable {σ τ : Type} {s : Session σ (Counting τ)} {i j : Nat} {file : String}

/-- Editors close scripts only when they have handled their mail. -/
def ClosesCalmly (s : Session σ τ) : Move → Prop
  | .editor i (.closeScript _ _) => s.inbox i = []
  | _ => True

variable [BreakpointStore τ] [LawfulStore τ]

structure Converging (s : Session σ (Counting τ)) : Prop where
  sound : s.Sound
  unhindered : Counting.Unhindered s.workspace.store
  settled {i : Nat} {file : String} {v : Option OpenScript} {a : Aspect} :
    s.Scene i file v a → Settled v a

variable [Archive σ] {c : Compiler} {v : Option OpenScript} {a : Aspect}

theorem Converging.aside (hs : s.Converging) {m : Move}
    (hclean : Counting.Spotless (move c m s).2.workspace.store)
    (hi : s.Scene i file v a) (hm : s.Aside i file m) {v' : Option OpenScript} {a' : Aspect}
    (hi' : (move c m s).2.Scene i file v' a') : Settled v' a' := by
  obtain ⟨a'', hi'', hfollows⟩ :=
    hi.aside (c := c) Counting.remembers hs.unhindered hs.sound hm (.inr hclean)
  obtain ⟨rfl, rfl⟩ := hi''.unique hi'
  exact (hs.settled hi).follows hfollows

theorem Converging.hear (hs : s.Converging)
    (hclean : Counting.Spotless (move c (.next i) s).2.workspace.store)
    (hi : s.Scene i file v a) {m : Message} {rest : List Message} (hinbox : s.inbox i = m :: rest)
    (hm : m.file? = some file) {v' : Option OpenScript} {a' : Aspect}
    (hi' : (move c (.next i) s).2.Scene i file v' a') : Settled v' a' := by
  have hsettled := hs.settled hi
  have hmail := hi.mail_cons hinbox hm
  obtain ⟨as, hi'', has⟩ := hi.hear (c := c) hsettled.script hinbox hm
  obtain ⟨rfl, rfl⟩ := hi''.unique hi'
  obtain rfl : as = a.armed.toList := by
    obtain has | ⟨hstore, hunlisted⟩ := has
    · exact has
    · rw [hstore] at hclean
      obtain ⟨as, hlist⟩ := Counting.remembers.list file hs.unhindered hclean
      exact absurd hlist (hunlisted as)
  cases hsettled with
  | closed _ hnone =>
    rw [hnone] at hmail
    cases hmail
  | opened hreach hscript hagrees =>
    exact .opened hreach hscript fun hp ↦ (hagrees hp).hear hmail

theorem Converging.of_seats (hs : s.Converging) {m : Move} (hm : m ≠ .newEditor)
    (hsettled : ∀ {i file v a v' a'}, s.Scene i file v a → (move c m s).2.Scene i file v' a' →
      Settled v' a') : (move c m s).2.Converging where
  sound := hs.sound.move m
  unhindered := (hs.unhindered.called (called_move hs.sound m)).1
  settled hi' := by
    obtain ⟨v, a, hi⟩ := hs.sound.scene_before hm hi'
    exact hsettled hi hi'

theorem Converging.next (hs : s.Converging) (j : Nat)
    (hclean : Counting.Spotless (move c (.next j) s).2.workspace.store) :
    (move c (.next j) s).2.Converging := by
  refine hs.of_seats (m := .next j) nofun fun {i file v a v' a'} hi hi' ↦ ?_
  by_cases hm : s.Aside i file (.next j)
  · exact hs.aside hclean hi hm hi'
  · simp only [Aside, not_forall, not_not] at hm
    obtain ⟨rfl, m, hhead, hfile⟩ := hm
    obtain ⟨rest, hinbox⟩ := List.head?_eq_some_iff.1 hhead
    exact hs.hear hclean hi hinbox hfile hi'

theorem Converging.nexts (hs : s.Converging) (j n : Nat)
    (hclean : Counting.Spotless (s.after c (List.replicate n (.next j))).workspace.store) :
    (s.after c (List.replicate n (.next j))).Converging := by
  induction n generalizing s with
  | zero => exact hs
  | succ n ih =>
    have hcalled := (after_replicate (c := c) (m := .next j) (P := fun s' ↦ s'.Sound ∧
        Called (move c (.next j) s).2.workspace.store s'.workspace.store)
      (fun s hs ↦ ⟨hs.1.next j, hs.2.trans (called_next hs.1 j)⟩) n
      ⟨hs.sound.next j, .nothing⟩).2
    have hunhindered := (hs.unhindered.called (called_next (c := c) hs.sound j)).1
    exact ih (hs.next j (Counting.remembers.clean_before hunhindered hcalled hclean)) hclean

theorem Converging.newEditor (hs : s.Converging) : (move c .newEditor s).2.Converging where
  sound := hs.sound.move .newEditor
  unhindered := hs.unhindered
  settled hi := by
    obtain hi | ⟨rfl, hreach, hmail⟩ := hs.sound.scene_newEditor hi
    · exact hs.settled hi
    · exact .closed hreach hmail

theorem Converging.move (hs : s.Converging) {m : Move} (hm : s.ClosesCalmly m)
    (hclean : Counting.Spotless (move c m s).2.workspace.store) : (move c m s).2.Converging := by
  cases m with
  | ask r => exact hs.of_seats (m := .ask r) nofun fun hi hi' ↦ hs.aside hclean hi trivial hi'
  | next j => exact hs.next j hclean
  | newEditor => exact hs.newEditor
  | editor j r =>
    cases hfile : r.file? with
    | none =>
      obtain rfl := EditorRequest.file?_eq_none.1 hfile
      obtain ⟨n, hn⟩ := move_runPending (c := c) hs.sound j
      rw [hn] at hclean ⊢
      exact hs.nexts j n hclean
    | some subject =>
      refine hs.of_seats (m := .editor j r) nofun fun {i file v a v' a'} hi hi' ↦ ?_
      by_cases hown : j = i → file ≠ subject
      · refine hs.aside hclean hi (fun hji ↦ ⟨subject, Ne.symm (hown hji), hfile⟩) hi'
      · simp only [not_forall, not_not] at hown
        obtain ⟨rfl, rfl⟩ := hown
        obtain ⟨e, hseat, hshows⟩ := hi
        rw [move_editor hs.sound hseat hfile] at hclean hi'
        obtain ⟨v'', a'', hshows', hsettled⟩ := Settled.perform (c := c) hshows
          (hs.settled ⟨e, hseat, hshows⟩) Counting.remembers hs.unhindered hfile
          (fun confirm hr ↦ by
            subst hr
            have hempty : s.inbox j = [] := hm
            rw [Scene.mail ⟨e, hseat, hshows⟩, hempty]
            rfl) hclean
        obtain ⟨rfl, rfl⟩ := (Scene.put_self hseat hshows').unique hi'
        exact hsettled

theorem Converging.after (hs : s.Converging) {ms : List Move} (hms : Along c ClosesCalmly s ms)
    (hclean : Counting.Spotless (s.after c ms).workspace.store) : (s.after c ms).Converging := by
  induction ms generalizing s with
  | nil => exact hs
  | cons m ms ih =>
    have hunhindered := (hs.unhindered.called (called_move (c := c) hs.sound m)).1
    have hclean' := Counting.remembers.clean_before hunhindered
      (called_after (hs.sound.move m) ms) hclean
    exact ih (hs.move hms.1 hclean') hms.2 hclean

omit [Archive σ] in
theorem converging_start (archive : σ) (store : Counting τ) :
    (start archive store).Converging where
  sound := sound_start archive store
  unhindered _ := rfl
  settled h := nomatch h.choose_spec.1

/-- Whatever moves are made in whatever order, and however late editors handle their mail: if the
store refused nothing and no editor closed a script with mail waiting, then an editor that has
handled its mail shows in both buffers exactly the breakpoints that are armed and that the buffer's
marks know, each on the line of its mark, as long as no save waits for its reload. -/
theorem editors_converge (c : Compiler) (archive : σ) (store : Counting τ) (ms : List Move)
    (hms : Along c ClosesCalmly (start archive store) ms)
    (hs : s = (start archive store).after c ms) (hrefusals : s.workspace.store.inner.refusals = 0)
    {t : Script} {o : OpenScript} (ht : s.workspace.scripts[file]? = some t)
    (hpending : t.hasPending = false) (ho : s.shown i file = some o) (hinbox : s.inbox i = [])
    (p : Projection) (x : Address) (line : Nat) :
    (o.buffers.get p).markers[x]? = some line ↔
      x ∈ LawfulStore.armed s.workspace.store file ∧
        ∃ place, (o.buffers.get p).marks.place? x = some place ∧ place.line = line := by
  have hconverging : s.Converging := by
    subst hs
    exact (converging_start archive store).after hms hrefusals
  obtain ⟨a, hi, hmail⟩ := hconverging.sound.scene_shown ho
  rw [hinbox, List.filter_nil] at hmail
  have hsettled := hconverging.settled hi
  cases hsettled with
  | @opened _ _ t' _ ht' hagrees =>
    rw [hi.script] at ht'
    obtain rfl : t' = t := Option.some.inj (ht'.symm.trans ht)
    rw [(hagrees hpending).displays hmail x p, hi.armed]
    split
    · next hx => rw [Option.map_eq_some_iff]; exact (and_iff_right hx).symm
    · next hx => exact ⟨nofun, fun h ↦ absurd h.1 hx⟩

/-- One editor adds a breakpoint, and the other one hears of it. -/
theorem editors_converge_after_toggle :
    ∃ s o, s = (start (ArchiveMap.ofList [("a", Utf8.encode "routine 5\n    a\n")])
        (⟨⟨∅, ()⟩, 0⟩ : Counting (Ledger Unit))).after Listing.compiler
        [.newEditor, .newEditor, .editor 0 (.openScript "a"), .editor 1 (.openScript "a"),
          .editor 0 (.toggle "a" .primary 1), .editor 1 .runPending] ∧
      s.shown 1 "a" = some o ∧
      (o.buffers.get .primary).markers[(⟨5, 0⟩ : Address)]? = some 1 := by
  obtain ⟨s, hs⟩ : ∃ s, s = (start (ArchiveMap.ofList [("a", Utf8.encode "routine 5\n    a\n")])
      (⟨⟨∅, ()⟩, 0⟩ : Counting (Ledger Unit))).after Listing.compiler
      [.newEditor, .newEditor, .editor 0 (.openScript "a"), .editor 1 (.openScript "a"),
        .editor 0 (.toggle "a" .primary 1), .editor 1 .runPending] := ⟨_, rfl⟩
  have hrefusals : s.workspace.store.inner.refusals = 0 := by
    rw [hs]
    decide +kernel
  have hscript : s.workspace.scripts["a"]?.map (·.hasPending) = some false := by
    rw [hs]
    decide +kernel
  have hplace : (s.shown 1 "a").map (fun o ↦ (o.buffers.get .primary).marks.place? ⟨5, 0⟩) =
      some (some ⟨1, 4⟩) := by
    rw [hs]
    decide +kernel
  have hinbox : (s.inbox 1).isEmpty = true := by
    rw [hs]
    decide +kernel
  have harmed : (⟨5, 0⟩ : Address) ∈ LawfulStore.armed s.workspace.store "a" := by
    rw [hs]
    decide +kernel
  obtain ⟨t, ht, hpending⟩ := Option.map_eq_some_iff.1 hscript
  obtain ⟨o, ho, hplace⟩ := Option.map_eq_some_iff.1 hplace
  refine ⟨s, o, hs, ho, (editors_converge Listing.compiler _ _ _ ?_ hs hrefusals ht hpending ho
    (List.isEmpty_iff.1 hinbox) .primary ⟨5, 0⟩ 1).2 ⟨harmed, _, hplace, rfl⟩⟩
  exact ⟨trivial, trivial, trivial, trivial, trivial, trivial, trivial⟩

end Session

end ScriptBreakpoints
