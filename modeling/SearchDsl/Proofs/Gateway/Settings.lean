import SearchDsl.Proofs.Gateway.Standing

/-!
# Settings in force

Settings come from the configuration and from events, and both are checked; an index without
settings has the default ones. So whatever is in force is valid, and that bounds the pages.

* `Settings.validate_eq_ok_iff`, `Config.validate_eq_ok_iff`: what the checks ask for;
* `Standing.isValid_after`, `Standing.isValid_afterAll`: an event, and so any events, leave valid
  settings behind;
* `Page.size_le`, `Page.offset_eq`: the page that a request gets under valid settings;
* `Run.settings_of_reachable`: the settings in force and the pages of all requests in every run, and
  what is left as it was by settings that are not valid.
-/

namespace SearchDsl

/-! ### Checks -/

/-- Valid settings have positive pages, a default size within them and a radius. -/
theorem Settings.validate_eq_ok_iff {s : Settings} :
    s.validate = .ok () ↔
      0 < s.maxSize ∧ s.defaultSize ≤ s.maxSize ∧ Text.isBlankText s.nearDistance = false := by
  unfold validate
  split
  · rename_i hzero
    simp [hzero]
  · rename_i hzero
    split
    · rename_i hlt
      refine iff_of_false (by simp) ?_
      rintro ⟨-, hle, -⟩
      omega
    · rename_i hle
      have hpos : 0 < s.maxSize := Nat.pos_of_ne_zero hzero
      cases Text.isBlankText s.nearDistance <;> simp [hpos, Nat.le_of_not_lt hle]

theorem Settings.isValid_iff {s : Settings} : s.isValid = true ↔ s.validate = .ok () := by
  unfold isValid
  cases s.validate <;> simp [Except.isOk, Except.toBool]

/-- A valid configuration lets expressions have fragments and has valid settings only. -/
theorem Config.validate_eq_ok_iff {c : Config} :
    c.validate = .ok () ↔ 0 < c.maxFragments ∧ ∀ e ∈ c.indices, e.2.validate = .ok () := by
  unfold validate
  split
  · rename_i hzero
    simp [hzero]
  · rename_i hzero
    rw [forM_eq_ok_iff]
    simp only [mapError_eq_ok, Nat.pos_of_ne_zero hzero, true_and]

/-! ### Pages -/

namespace Page

variable {settings : Settings}

/-- No page begins before the first document. -/
theorem offset_eq (offset size : Option Int) :
    ((ofRequest settings offset size).offset : Int) = max 0 (offset.getD 0) := by
  simp only [ofRequest]
  omega

/-- Under valid settings no page is larger than the greatest size. -/
theorem size_le (h : settings.validate = .ok ()) (offset size : Option Int) :
    (ofRequest settings offset size).size ≤ settings.maxSize := by
  obtain ⟨-, hdefault, -⟩ := Settings.validate_eq_ok_iff.1 h
  cases size with
  | none => exact hdefault
  | some n =>
    simp only [ofRequest]
    split
    · rename_i hn
      simp only [Bool.and_eq_true, decide_eq_true_eq] at hn
      exact hn.2
    · exact hdefault

/-- A size within the bounds is granted. -/
theorem size_eq {n : Nat} (h : n ≤ settings.maxSize) (offset : Option Int) :
    (ofRequest settings offset (some n)).size = n := by
  simp [ofRequest, h]

end Page

/-- The page of a search is that of its request. -/
theorem Search.page_of_direct {schema : Snapshot} {settings : Settings} {limit : Nat}
    {request : Request} {search : Search}
    (h : direct schema settings limit request = .ok search) :
    search.page = Page.ofRequest settings request.offset request.size := by
  simp only [direct, bind_eq_ok, pure_eq_ok] at h
  obtain ⟨query, -, aggregations, -, projection, -, rfl⟩ := h
  rfl

/-! ### Events -/

namespace Standing

/-- The settings of the index are valid, if it has any. -/
def IsValid (st : Standing) : Prop := ∀ s, st.settings = some s → s.validate = .ok ()

theorem IsValid.current {st : Standing} (h : st.IsValid) : st.current.validate = .ok () := by
  unfold Standing.current
  cases hs : st.settings with
  | none => rfl
  | some s => exact h s hs

theorem isValid_ofConfig {c : Config} (hc : c.validate = .ok ()) (index : String) :
    (ofConfig c index).IsValid := by
  intro s hs
  exact (Config.validate_eq_ok_iff.1 hc).2 (index, s) (Table.mem_of_lookup hs)

/-- **An event leaves valid settings behind.** -/
theorem isValid_after {st : Standing} (h : st.IsValid) (index : String) (e : RefreshEvent) :
    (st.after index e).IsValid := by
  cases e with
  | mappingChanged i m =>
    rw [after]
    split
    · exact h
    · exact h
  | settingsChanged i settings =>
    rw [after]
    split
    · rename_i hvalid
      rintro s ⟨⟩
      exact Settings.isValid_iff.1 hvalid.1
    · exact h
  | indexRemoved i =>
    rw [after]
    split
    · rintro s ⟨⟩
    · exact h

/-- **Whatever events come, the settings of an index stay valid.** -/
theorem isValid_foldl {st : Standing} (h : st.IsValid) (index : String)
    (events : List RefreshEvent) : (events.foldl (after index) st).IsValid := by
  induction events generalizing st with
  | nil => exact h
  | cons e events ih => exact ih (isValid_after h index e)

theorem isValid_afterAll {c : Config} (hc : c.validate = .ok ()) (events : List RefreshEvent)
    (index : String) : (afterAll c events index).IsValid :=
  isValid_foldl (isValid_ofConfig hc index) index events

end Standing

/-! ### Runs -/

namespace Run

variable {c : Config} {r : Run}

theorem get_of_reachable (h : Reachable c r) (index : String) :
    r.gateway.settings.get index = (Standing.afterAll c r.events index).current :=
  congrArg Standing.current ((standing_of_reachable h).1 index)

/-- The page of an answer is that of the request under the settings of its index. -/
theorem page_of_reachable (h : Reachable c r) {request : Request} {search : Search}
    (hok : (r.gateway.compile request).1 = .ok search) :
    search.page = Page.ofRequest (r.gateway.settings.get request.index) request.offset
      request.size := by
  rw [get_of_reachable h, (consistent_of_reachable h).compile_answer,
    (standing_of_reachable h).1] at *
  unfold Standing.search at hok
  split at hok
  · exact Search.page_of_direct hok
  · cases hok

/-- **Only valid settings are in force.** In every run from a valid configuration the settings of
every index are valid, also those of an index that nobody knows. So an answer to a request begins no
earlier than at the first document and is no larger than the index allows; a size within these
bounds is granted. Settings that are not valid change nothing at all. -/
theorem settings_of_reachable (hc : c.validate = .ok ()) (h : Reachable c r) :
    (∀ index, (r.gateway.settings.get index).validate = .ok ()) ∧
    (∀ request search, (r.gateway.compile request).1 = .ok search →
      (search.page.offset : Int) = max 0 (request.offset.getD 0) ∧
        search.page.size ≤ (r.gateway.settings.get request.index).maxSize ∧
        ∀ n : Nat, request.size = some (n : Int) →
          n ≤ (r.gateway.settings.get request.index).maxSize → search.page.size = n) ∧
    ∀ index settings, settings.validate ≠ .ok () →
      r.gateway.apply (.settingsChanged index settings) = r.gateway := by
  have hvalid : ∀ index, (r.gateway.settings.get index).validate = .ok () := by
    intro index
    rw [get_of_reachable h]
    exact (Standing.isValid_afterAll hc r.events index).current
  refine ⟨hvalid, fun request search hok => ?_, fun index settings hno => ?_⟩
  · rw [page_of_reachable h hok]
    refine ⟨Page.offset_eq _ _, Page.size_le (hvalid request.index) _ _, fun n hn hle => ?_⟩
    rw [hn]
    exact Page.size_eq hle _
  · refine Gateway.apply_invalid ?_
    rwa [← Bool.not_eq_true, Settings.isValid_iff]

/-- An index that is removed and mapped anew between settings of which only the first are valid; the
page that is asked for is out of bounds on both sides. -/
theorem settings_of_reachable_anew :
    let tight := { Settings.standard with defaultSize := 5, maxSize := 10 }
    let wrong := { tight with defaultSize := 50 }
    let c := Config.standard.withIndex "listings" tight
    let mapping := Mapping.empty.field "id" (.leaf .keyword)
    let anew := ((((start c).apply (.mappingChanged "listings" mapping)).apply
      (.indexRemoved "listings")).apply (.mappingChanged "listings" mapping)).apply
      (.settingsChanged "listings" tight)
    let r := anew.apply (.settingsChanged "listings" wrong)
    let request := { Request.forIndex "listings" with offset := some (-3), size := some 11 }
    c.validate = .ok () ∧ Reachable c r ∧ wrong.validate ≠ .ok () ∧
      r.gateway.apply (.settingsChanged "elsewhere" wrong) = r.gateway ∧
      (r.gateway.settings.get "elsewhere").validate = .ok () ∧
      ∃ search, (r.gateway.compile request).1 = .ok search ∧
        (search.page.offset : Int) = max 0 (-3) ∧
        search.page.size ≤ (r.gateway.settings.get "listings").maxSize := by
  intro tight wrong c mapping anew r request
  obtain ⟨⟨⟩, hc⟩ : ∃ u, c.validate = .ok u := exists_eq_ok (by decide +kernel)
  have hr : Reachable c r :=
    .step (.step (.step (.step (.step .start (.event _ _)) (.event _ _)) (.event _ _))
      (.event _ _)) (.event _ _)
  have hwrong : wrong.validate ≠ .ok () := by
    rw [ne_eq, Settings.validate_eq_ok_iff]
    decide
  obtain ⟨hvalid, hpage, hkeeps⟩ := settings_of_reachable hc hr
  have hok : (r.gateway.compile request).1.isOk = true := by decide +kernel
  obtain ⟨search, hsearch⟩ := exists_eq_ok hok
  obtain ⟨hoffset, hsize, -⟩ := hpage request search hsearch
  exact ⟨hc, hr, hwrong, hkeeps _ _ hwrong, hvalid _, search, hsearch, hoffset, hsize⟩

end Run
end SearchDsl
