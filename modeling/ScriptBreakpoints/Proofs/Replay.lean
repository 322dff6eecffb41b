import ScriptBreakpoints.Proofs.Markers

namespace ScriptBreakpoints

open Workspace

variable {file : String} {armed armed' shown shown' : Std.ExtTreeSet Address} {x y : Address}
  {ms : List Message} {o : OpenScript} {a a' : Aspect}

/-- What is shown after a message, where `armed` is what a reload finds. -/
def Message.shows (armed shown : Std.ExtTreeSet Address) : Message → Std.ExtTreeSet Address
  | .reload _ => armed
  | .added _ x => shown.insert x
  | .removed _ x => shown.erase x
  | .shutdown => shown

def replay (armed shown : Std.ExtTreeSet Address) (ms : List Message) : Std.ExtTreeSet Address :=
  ms.foldl (Message.shows armed) shown

/-- A message says nothing of a breakpoint, or it alone says whether it is shown. -/
theorem Message.mem_shows (m : Message) (y : Address) :
    (∀ armed shown, y ∈ m.shows armed shown ↔ y ∈ shown) ∨
      ∀ armed shown shown', y ∈ m.shows armed shown ↔ y ∈ m.shows armed shown' := by
  cases m with
  | reload e => exact .inr fun _ _ _ ↦ Iff.rfl
  | added f x =>
    simp only [shows, mem_insert_iff]
    by_cases h : x = y
    · exact .inr fun _ _ _ ↦ iff_of_true (.inl h) (.inl h)
    · exact .inl fun _ _ ↦ or_iff_right h
  | removed f x =>
    simp only [shows, mem_erase_iff]
    by_cases h : x = y
    · exact .inr fun _ _ _ ↦ iff_of_false (fun hy ↦ hy.1 h) fun hy ↦ hy.1 h
    · exact .inl fun _ _ ↦ and_iff_right h
  | shutdown => exact .inl fun _ _ ↦ Iff.rfl

theorem replay_append (m : Message) :
    replay armed shown (ms ++ [m]) = m.shows armed (replay armed shown ms) := by
  rw [replay, List.foldl_append]
  rfl

theorem mem_replay_congr (harmed : y ∈ armed ↔ y ∈ armed') (hshown : y ∈ shown ↔ y ∈ shown') :
    y ∈ replay armed shown ms ↔ y ∈ replay armed' shown' ms := by
  induction ms generalizing shown shown' with
  | nil => exact hshown
  | cons m ms ih =>
    refine ih ?_
    cases m with
    | reload e => exact harmed
    | added f x => rw [Message.shows, Message.shows, mem_insert_iff, mem_insert_iff, hshown]
    | removed f x => rw [Message.shows, Message.shows, mem_erase_iff, mem_erase_iff, hshown]
    | shutdown => exact hshown

/-- Apart from some breakpoints, what is shown and the mail lead to what is armed. Nothing need be
known of what is shown while a reload is still to come. -/
def Agrees (except : List Address) (o : OpenScript) (a : Aspect) : Prop :=
  ∃ shown, ((∀ y ∉ except, o.Displays shown y) ∨ ∃ e, .reload e ∈ a.mail) ∧
    ∀ y ∉ except, y ∈ replay a.armed shown a.mail ↔ y ∈ a.armed

namespace Agrees

variable {except more : List Address}

theorem mono (h : Agrees except o a) (hsub : ∀ y ∈ except, y ∈ more) : Agrees more o a := by
  obtain ⟨shown, hshown, hreplay⟩ := h
  refine ⟨shown, hshown.imp_left fun h y hy ↦ h y (mt (hsub y) hy), fun y hy ↦ ?_⟩
  exact hreplay y (mt (hsub y) hy)

theorem congr (h : Agrees except o a) (harmed : a'.armed = a.armed) (hmail : a'.mail = a.mail) :
    Agrees except o a' := by
  rw [Agrees, harmed, hmail]
  exact h

theorem of_reload {e : Reload} (ms : List Message) (hmail : a'.mail = ms ++ [.reload e]) :
    Agrees except o a' := by
  refine ⟨∅, .inr ⟨e, by rw [hmail]; simp⟩, fun y _ ↦ ?_⟩
  rw [hmail, replay_append]
  rfl

theorem news {m : Message} (h : Agrees except o a) (hmail : a'.mail = a.mail ++ [m])
    (harmed : a'.armed = m.shows a'.armed a.armed) : Agrees except o a' := by
  obtain ⟨shown, hshown, hreplay⟩ := h
  refine ⟨shown, hshown.imp_right fun ⟨e, he⟩ ↦ ⟨e, hmail ▸ List.mem_append_left _ he⟩,
    fun y hy ↦ ?_⟩
  rw [hmail, replay_append]
  obtain hm | hm := m.mem_shows y
  · have hkept : y ∈ a'.armed ↔ y ∈ a.armed := by rw [harmed, hm]
    rw [hm, mem_replay_congr hkept Iff.rfl, hreplay y hy, hkept]
  · rw [hm _ _ a.armed, ← harmed]

/-- A breakpoint can be shown before its message is handled, if that comes last. -/
theorem showMarker (h : Agrees except o a) (hmail : a.mail = ms ++ [.added file x]) :
    Agrees except (o.showMarker x) a := by
  obtain ⟨shown, hshown, hreplay⟩ := h
  refine ⟨shown.insert x, hshown.imp_left fun h y hy ↦ (h y hy).showMarker, fun y hy ↦ ?_⟩
  rw [← hreplay y hy, hmail, replay_append, replay_append, Message.shows, mem_insert_iff,
    Message.shows, mem_insert_iff]
  refine or_congr_right' fun hne ↦ ?_
  exact mem_replay_congr Iff.rfl (mem_insert_iff.trans (or_iff_right hne))

theorem hideMarker (h : Agrees (x :: except) o a) (hx : x ∉ a.armed)
    (hmail : a.mail = ms ++ [.removed file x]) : Agrees except (o.hideMarker x) a := by
  obtain ⟨shown, hshown, hreplay⟩ := h
  have hout {y : Address} (hy : y ∉ except) (hne : y ≠ x) : y ∉ x :: except := by
    rw [List.mem_cons, not_or]
    exact ⟨hne, hy⟩
  refine ⟨shown.erase x, hshown.imp_left fun h y hy ↦ .hideMarker fun hne ↦ h y (hout hy hne),
    fun y hy ↦ ?_⟩
  by_cases hne : y = x
  · rw [hmail, replay_append, Message.shows, mem_erase_iff, hne]
    exact iff_of_false (fun h ↦ h.1 rfl) hx
  · rw [← hreplay y (hout hy hne), hmail, replay_append, replay_append, Message.shows,
      mem_erase_iff, Message.shows, mem_erase_iff]
    refine and_congr_right fun hxy ↦ ?_
    exact mem_replay_congr Iff.rfl (mem_erase_iff.trans (and_iff_right hxy))

/-- The mail goes on to lead to what is armed when it is handled. -/
theorem hear {m : Message} (h : Agrees except o a) (hmail : a.mail = m :: ms) :
    Agrees except (o.hear a.armed.toList m) { a with mail := ms } := by
  obtain ⟨shown, hshown, hreplay⟩ := h
  have hrest (hm : ∀ e, m ≠ .reload e) : (∃ e, Message.reload e ∈ a.mail) →
      ∃ e, Message.reload e ∈ ms := by
    rintro ⟨e, he⟩
    rw [hmail] at he
    exact ⟨e, List.mem_of_ne_of_mem (Ne.symm (hm e)) he⟩
  rw [hmail] at hreplay
  refine ⟨m.shows a.armed shown, ?_, hreplay⟩
  cases m with
  | reload e =>
    refine .inl fun y _ ↦ ?_
    have hdisplays := OpenScript.displays_hear_reload a.armed.toList e o y
    rwa [ofList_toList] at hdisplays
  | added f x => exact hshown.imp (fun h y hy ↦ (h y hy).showMarker) (hrest nofun)
  | removed f x => exact hshown.imp (fun h y hy ↦ .hideMarker fun _ ↦ h y hy) (hrest nofun)
  | shutdown => exact hshown.imp_right (hrest nofun)

theorem follow {e : LineEdit} {lines : List String} (h : Agrees [] o a)
    (hkept : ∀ y ∉ except, ∀ line, o.buffer.markers[y]? = some line → e.line? line ≠ none) :
    Agrees except (o.setBuffer ({ o.buffer with lines }.follow e)) a := by
  obtain ⟨shown, hshown, hreplay⟩ := h
  refine ⟨shown, hshown.imp_left fun h y hy ↦ ?_, fun y _ ↦ hreplay y List.not_mem_nil⟩
  have hy' := h y List.not_mem_nil
  exact hy'.setBuffer (Buffer.Displays.follow (b := { o.buffer with lines }) (hy' o.authority)
    (hkept y hy))

theorem of_place (hclear : ∀ p, (o.buffers.get p).markers = ∅) (hw : o.waiting = false)
    (hmail : a.mail = []) : Agrees except (o.place a.armed.toList) a := by
  refine ⟨a.armed, .inl fun y _ ↦ ?_, fun y _ ↦ ?_⟩
  · have hdisplays := OpenScript.displays_place a.armed.toList hclear hw y
    rwa [ofList_toList] at hdisplays
  · rw [hmail]
    rfl

/-- When all the mail is handled, what is armed is shown. -/
theorem displays (h : Agrees [] o a) (hmail : a.mail = []) (y : Address) :
    o.Displays a.armed y := by
  obtain ⟨shown, hshown, hreplay⟩ := h
  rw [hmail] at hshown hreplay
  obtain hshown | ⟨e, he⟩ := hshown
  · intro p
    have hy := hshown y List.not_mem_nil p
    rw [Buffer.Displays] at hy ⊢
    rw [hy]
    exact if_congr (hreplay y List.not_mem_nil) rfl rfl
  · cases he

end Agrees

/-- An editor hears nothing of a script that it has not open. What it shows of one that it has open
leads to what is armed, unless a save waits for its reload. -/
inductive Settled : Option OpenScript → Aspect → Prop
  | closed {a : Aspect} : a.reach = 0 → a.mail = [] → Settled none a
  | opened {o : OpenScript} {a : Aspect} {s : Script} : a.reach = 1 → a.script = some s →
      (s.hasPending = false → Agrees [] o a) → Settled (some o) a

theorem Settled.script {v : Option OpenScript} (h : Settled v a) (hv : v.isSome) :
    ∃ s, a.script = some s := by
  cases h with
  | closed => cases hv
  | opened _ hs => exact ⟨_, hs⟩

theorem Settled.asked {c : Compiler} {v : Option OpenScript} {r : Request} (h : Settled v a)
    (ha : a.Asked c r a') : Settled v a' := by
  cases h with
  | closed hreach hmail =>
    cases ha with
    | ignored => exact .closed hreach hmail
    | found => exact .closed hreach hmail
    | @granted s hs =>
      refine .closed hreach ?_
      rw [Aspect.grant, hmail, hreach, List.nil_append]
      cases r.posts c s <;> rfl
  | @opened o _ s hreach hs hagrees =>
    cases ha with
    | ignored => exact .opened hreach hs hagrees
    | found ht =>
      obtain rfl := ht.unique hs
      exact .opened hreach rfl fun h ↦ (hagrees h).congr rfl rfl
    | granted ht =>
      obtain rfl := ht.unique hs
      rename_i t
      refine .opened hreach rfl fun hp ↦ ?_
      have hmail {m : Message} (hm : r.posts c t = some m) :
          (a.grant c r t).mail = a.mail ++ [m] := by
        rw [Aspect.grant, hm, hreach]
        rfl
      cases r.effect c t with
      | reloads hm => exact .of_reload _ (hmail hm)
      | adds x hm harmed hturn =>
        rw [hturn] at hp
        exact (hagrees hp).news (hmail hm) (harmed _)
      | removes x hm harmed hturn =>
        rw [hturn] at hp
        exact (hagrees hp).news (hmail hm) (harmed _)
      | saves _ hsave =>
        cases hturn : r.turn c t with
        | saved binary views =>
          rw [hturn, Script.after, Script.hasPending_save] at hp
          cases hp
        | _ =>
          rw [hturn] at hsave
          cases hsave
      | quiet hm harmed hreloads hsave =>
        rw [Script.hasPending_after hreloads hsave] at hp
        refine (hagrees hp).congr (harmed _) ?_
        rw [Aspect.grant, hm]
        exact List.append_nil _

theorem Settled.follows {c : Compiler} {v : Option OpenScript} {asked : Request → Prop}
    (h : Settled v a) (ha : a.Follows c file asked a') : Settled v a' := by
  induction ha with
  | refl => exact h
  | ask _ _ _ hasked ih => exact ih.asked hasked

end ScriptBreakpoints
