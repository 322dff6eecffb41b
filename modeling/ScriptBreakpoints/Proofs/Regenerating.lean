import ScriptBreakpoints.Proofs.AllOrNothing
import ScriptBreakpoints.Proofs.Normalizing

namespace ScriptBreakpoints

namespace SourceMap

variable {m m' : SourceMap} {a : Address} {line : Nat}

theorem mem_of_first? (h : m.first? line = some a) : a ∈ m.entries.map Entry.address := by
  obtain ⟨e, he, rfl⟩ := List.mem_map.1 (List.mem_of_mem_head? h)
  rw [List.mem_mergeSort, List.mem_filter] at he
  exact List.mem_map_of_mem he.1

theorem place?_isSome_iff : (m.place? a).isSome = true ↔ a ∈ m.entries.map Entry.address := by
  simp [place?]

end SourceMap

namespace Workspace

variable {σ τ : Type} {c : Compiler} {file text : String} {projection : Projection}
  {marked : LineSet} {w : Workspace σ τ}

theorem build_ok {compiled : Compiled} {other : View}
    (hc : c.compile projection text = .ok compiled)
    (hd : c.decompile projection.other compiled.binary = .ok other) :
    (build c file projection text).outcome w = (.ok (compiled, other), w) := by
  simp only [build, hc, hd, Fallible.outcome_pure]

variable [Archive σ] [BreakpointStore τ]

/-- Only the compiler finds fault with a text, be it with the saved one or while it generates the
other. -/
theorem save_compile_error {e : CompileFault}
    (h : ((save c file projection text marked).outcome w).1 = .error (.compile e)) :
    c.compile projection text = .error e ∨ ∃ compiled, c.compile projection text = .ok compiled ∧
      c.decompile projection.other compiled.binary = .error e := by
  obtain ⟨s, w₁, hs, -⟩ | ⟨e', w₁, hs, -⟩ := script_cases c file w
  swap
  · simp only [save, Fallible.outcome_bind, hs] at h
    cases h
  simp only [save, Fallible.outcome_bind, hs] at h
  split_ifs at h with ha
  · cases h
  cases hc : c.compile projection text with
  | error e' =>
    simp only [build, hc, Fallible.outcome_bind, outcome_note, Fallible.outcome_throw] at h
    cases h
    exact .inl rfl
  | ok compiled =>
    cases hd : c.decompile projection.other compiled.binary with
    | error e' =>
      simp only [Fallible.outcome_bind, build, hc, hd, Fallible.outcome_throw] at h
      cases h
      exact .inr ⟨compiled, rfl, hd⟩
    | ok other =>
      -- From here on only storage is asked.
      simp only [Fallible.outcome_bind, build_ok hc hd, outcome_askStore] at h
      rcases hl : BreakpointStore.list file w₁.store with ⟨e' | previous, t₁⟩
      · simp only [hl, outcome_demand_error] at h
        cases h
      rcases hr : BreakpointStore.resync file (compiled.map.breakpointsOn marked) t₁
        with ⟨e' | _, t⟩
      · simp only [hl, hr, outcome_demand_ok, outcome_demand_error] at h
        cases h
      simp only [hl, hr, outcome_demand_ok] at h
      obtain ⟨a, log, ho, -⟩ | ⟨e', a, -, ho⟩ :=
        archiveBinary_cases file compiled.binary previous { w₁ with store := t }
      · simp only [ho, outcome_putScript, outcome_note, Fallible.outcome_pure] at h
        cases h
      · simp only [ho] at h
        cases h

variable [LawfulStore τ]

/-- What a save hands to the store has a place in both of the latest maps, if what is generated has
all addresses of what is compiled. -/
theorem place?_of_saved {saved : Saved} {w' : Workspace σ τ} (hgenerate : ∀ compiled other,
      c.compile projection text = .ok compiled →
      c.decompile projection.other compiled.binary = .ok other →
      ∀ a ∈ compiled.map.entries.map Entry.address, a ∈ other.map.entries.map Entry.address)
    (h : SaveEnds c file projection text marked w (.ok saved) w') :
    ∃ s, w'.scripts[file]? = some s ∧
      (∀ a ∈ saved.breakpoints, ∀ p, ((s.latest p).map.place? a).isSome = true) ∧
      ∀ as, (BreakpointStore.list file w'.store).1 = .ok as →
        ∀ a ∈ as, ∀ p, ((s.latest p).map.place? a).isSome = true := by
  cases h with
  | @done s w₁ compiled other previous a t₁ t log hs ha hc hd hl hr hw hlog =>
    have hplace : ∀ a ∈ compiled.map.breakpointsOn marked, ∀ p,
        (((s.save compiled.binary
          (savedViews projection text compiled.map other)).2.latest p).map.place? a).isSome := by
      intro a hmem p
      obtain ⟨line, _, hfirst⟩ := mem_breakpointsOn.1 hmem
      have hcompiled := SourceMap.mem_of_first? hfirst
      rw [Script.latest_save, savedViews, Dual.get_ofFn, SourceMap.place?_isSome_iff]
      split_ifs
      · exact hcompiled
      · exact hgenerate compiled other hc hd a hcompiled
    refine ⟨_, Std.ExtTreeMap.getElem?_insert_self, hplace, fun as hlist a hmem ↦ ?_⟩
    obtain rfl := LawfulStore.list_eq hlist
    rw [Std.ExtTreeSet.mem_toList, armed_resynced hr, Function.update_self, mem_ofList] at hmem
    exact hplace a hmem

/-- A listing that compiles can be decompiled in both projections, and both texts compile to the
same binary again. So a save of it is never refused for what is generated, and every address that
the store is given has a place in the latest maps of both projections. -/
theorem listing_regenerates {compiled : Compiled}
    (h : Listing.compiler.compile projection text = .ok compiled) :
    (∃ views, Listing.Regenerates compiled views) ∧
      ∀ (file : String) (marked : LineSet) (w : Workspace σ τ),
        (∀ e, ((save Listing.compiler file projection text marked).outcome w).1 ≠
          .error (.compile e)) ∧
        ∀ saved w',
          (save Listing.compiler file projection text marked).outcome w = (.ok saved, w') →
          ∃ s, w'.scripts[file]? = some s ∧
            (∀ a ∈ saved.breakpoints, ∀ p, ((s.latest p).map.place? a).isSome = true) ∧
            ∀ as, (BreakpointStore.list file w'.store).1 = .ok as →
              ∀ a ∈ as, ∀ p, ((s.latest p).map.place? a).isSome = true := by
  obtain ⟨views, hviews⟩ := Listing.exists_regenerates h
  refine ⟨⟨views, hviews⟩, fun file marked w ↦ ⟨?_, ?_⟩⟩
  · intro e he
    obtain hc | ⟨compiled', hc, hd⟩ := save_compile_error he
    · rw [h] at hc
      cases hc
    · obtain rfl : compiled = compiled' := Except.ok.inj (h.symm.trans hc)
      rw [hviews.decompiles] at hd
      cases hd
  · intro saved w' hsave
    have hends := save_ends Listing.compiler file projection text marked w
    rw [hsave] at hends
    refine place?_of_saved (fun compiled' other hc hd a ha ↦ ?_) hends
    obtain rfl : compiled = compiled' := Except.ok.inj (h.symm.trans hc)
    obtain rfl : views.get projection.other = other :=
      Except.ok.inj ((hviews.decompiles projection.other).symm.trans hd)
    rw [hviews.addresses]
    exact ha

def withEmptyScript : Workspace ArchiveMap (Ledger Unit) where
  archive := .ofList [("a", [])]
  store := ⟨∅, ()⟩

def looseListing : String := "\troutine +007 \n// comment\n  one \n\ntwo"

theorem loose_listing_regenerates : ∃ compiled saved w',
    (∃ views, Listing.Regenerates compiled views) ∧
      (save Listing.compiler "a" .primary looseListing (.ofList [2, 4])).outcome withEmptyScript =
        (.ok saved, w') ∧
      saved.breakpoints = [⟨7, 0⟩, ⟨7, 1⟩] ∧
      ∃ s, w'.scripts["a"]? = some s ∧
        ∀ a ∈ saved.breakpoints, ∀ p, ((s.latest p).map.place? a).isSome = true := by
  have hcompiles : (Listing.compiler.compile .primary looseListing).toBool = true := by
    decide +kernel
  obtain ⟨w, hw⟩ : ∃ w, w = withEmptyScript := ⟨_, rfl⟩
  have hsaves : ((save Listing.compiler "a" .primary looseListing (.ofList [2, 4])).outcome
      w).1.toOption.map Saved.breakpoints = some [⟨7, 0⟩, ⟨7, 1⟩] := by
    rw [hw]
    decide +kernel
  rw [← hw]
  cases hcompile : Listing.compiler.compile .primary looseListing with
  | error e =>
    rw [hcompile] at hcompiles
    cases hcompiles
  | ok compiled =>
    obtain ⟨hviews, hsave⟩ : _ ∧ ∀ file marked (w : Workspace ArchiveMap (Ledger Unit)), _ :=
      listing_regenerates hcompile
    obtain ⟨saved, hok, hbreakpoints⟩ := Option.map_eq_some_iff.1 hsaves
    rcases ho : (save Listing.compiler "a" .primary looseListing (.ofList [2, 4])).outcome w
      with ⟨f | saved', w'⟩
    · rw [ho] at hok
      cases hok
    · rw [ho] at hok
      cases hok
      obtain ⟨s, hs, hplaces, _⟩ := (hsave "a" _ w).2 saved w' ho
      exact ⟨compiled, saved, w', hviews, ho, hbreakpoints, s, hs, hplaces⟩

end Workspace

end ScriptBreakpoints
