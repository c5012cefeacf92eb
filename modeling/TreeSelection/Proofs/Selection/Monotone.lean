import TreeSelection.Proofs.Selection.Checking

namespace TreeSelection

namespace Choice

variable {c : Choice} {includes includes' excludes excludes' : List String} {path : String}

theorem Excludes.mono [Glob.Limit] {barred : TextSet} (hbarred : ∀ q ∈ c.barred, q ∈ barred)
    (hexcludes : excludes ⊆ excludes') (h : c.Excludes excludes path) :
    { c with barred }.Excludes excludes' path := by
  rcases h with ⟨q, hq, hpath⟩ | ⟨hon, g, hg, hblank, htest⟩
  · exact .inl ⟨q, hbarred q hq, hpath⟩
  · exact .inr ⟨hon, g, hexcludes hg, hblank, htest⟩

variable (c) in
theorem selects_pick_iff [Glob.Limit] (includes excludes : List String) {picked : TextSet}
    (hpicked : ∀ q ∈ c.picked, q ∈ picked) (path : String) :
    { c with picked }.Selects includes excludes path ↔
      c.Selects includes excludes path ∨ ¬ c.Excludes excludes path ∧
        ∃ q ∈ picked, q ∉ c.picked ∧ Path.normalize q = some path := by
  constructor
  · rintro ⟨hfree, ⟨q, hq, hpath⟩ | hmask⟩
    · by_cases hold : q ∈ c.picked
      · exact .inl ⟨hfree, .inl ⟨q, hold, hpath⟩⟩
      · exact .inr ⟨hfree, q, hq, hold, hpath⟩
    · exact .inl ⟨hfree, .inr hmask⟩
  · rintro (⟨hfree, ⟨q, hq, hpath⟩ | hmask⟩ | ⟨hfree, q, hq, -, hpath⟩)
    · exact ⟨hfree, .inl ⟨q, hpicked q hq, hpath⟩⟩
    · exact ⟨hfree, .inr hmask⟩
    · exact ⟨hfree, .inl ⟨q, hq, hpath⟩⟩

theorem Selects.mono_includes [Glob.Limit] (hsome : ∃ g ∈ includes, Text.isBlankText g = false)
    (hincludes : includes ⊆ includes') (h : c.Selects includes excludes path) :
    c.Selects includes' excludes path := by
  refine ⟨h.1, h.2.imp_right (Or.imp_right ?_)⟩
  rintro (hblank | ⟨g, hg, htest⟩)
  · obtain ⟨g, hg, hne⟩ := hsome
    simp [hblank g hg] at hne
  · exact .inr ⟨g, hincludes hg, htest⟩

theorem decide_eq_of_filtersOn_eq_false (h : c.filtersOn = false) (m m' : Mask) :
    c.decide m = c.decide m' := by
  funext path
  simp [Choice.decide, h]

end Choice

namespace Selection

theorem ofTree_resolves [Glob.Limit] {above : String} {t : Tree} (h : t.Shaped above)
    (hcanonical : ∀ p ∈ t.filePaths, Path.normalize p = some p) (includes excludes : List String)
    (choice : Choice) :
    (ofTree t (.ofPatterns includes excludes) choice).Resolves t (choice.Excludes excludes)
      (choice.Selects includes excludes) :=
  ofRule_resolves h
    (fun p hp => Choice.decide_eq_excluded_iff_excludes includes excludes (hcanonical p hp))
    (fun p hp => Choice.decide_eq_selected_iff_selects includes excludes (hcanonical p hp))
    (fun _ hp => hp.1)

/-- From one selection to the other files are gained only, among those that could be selected
already. -/
structure Widens (s s' : Selection) : Prop where
  sublist_files : s.files.Sublist s'.files
  total_eq : ∀ d, (s'.counts d).total = (s.counts d).total
  excluded_eq : ∀ d, (s'.counts d).excluded = (s.counts d).excluded
  excludedFiles_eq : s'.excludedFiles = s.excludedFiles

namespace Resolves

variable {s s' : Selection} {t : Tree} {excluded selected excluded' selected' : String → Prop}
  [DecidablePred excluded] [DecidablePred selected] [DecidablePred excluded']
  [DecidablePred selected']

theorem mem_files_iff (h : s.Resolves t excluded selected) {p : String} :
    p ∈ s.files ↔ p ∈ t.filePaths ∧ selected p := by
  rw [h.files_eq, List.mem_filter, decide_eq_true_iff]

theorem sublist_files (h : s.Resolves t excluded selected) (h' : s'.Resolves t excluded' selected')
    (hselected : ∀ p, selected p → selected' p) : s.files.Sublist s'.files := by
  rw [h.files_eq, h'.files_eq]
  exact List.monotone_filter_right _ fun p hp => by simpa using hselected p (by simpa using hp)

theorem counts_of_not_mem (h : s.Resolves t excluded selected) {d : String}
    (hd : d ∉ t.dirPaths) : s.counts d = {} := by
  have hlookup : s.directories.lookup d = none := by
    rw [List.lookup_eq_none_iff]
    rintro ⟨path, counts⟩ hmem
    have hpath := ((h.mem_directories path counts).1 hmem).1
    simpa using fun heq : d = path => hd (heq ▸ hpath)
  rw [counts, hlookup, Option.getD_none]

theorem total_add_excluded_counts (h : s.Resolves t excluded selected)
    (h' : s'.Resolves t excluded' selected') (d : String) :
    (s'.counts d).total + (s'.counts d).excluded = (s.counts d).total + (s.counts d).excluded := by
  by_cases hd : d ∈ t.dirPaths
  · rw [h.counts_eq hd, h'.counts_eq hd, Counts.total_add_excluded_ofPaths,
      Counts.total_add_excluded_ofPaths]
  · rw [h.counts_of_not_mem hd, h'.counts_of_not_mem hd]

theorem excluded_counts_le (h : s.Resolves t excluded selected)
    (h' : s'.Resolves t excluded' selected') (hexcluded : ∀ p, excluded p → excluded' p)
    (d : String) : (s.counts d).excluded ≤ (s'.counts d).excluded := by
  by_cases hd : d ∈ t.dirPaths
  · rw [h.counts_eq hd, h'.counts_eq hd]
    exact List.countP_mono_left fun p _ hp => by simpa using hexcluded p (by simpa using hp)
  · rw [h.counts_of_not_mem hd, h'.counts_of_not_mem hd]

theorem excludedFiles_le (h : s.Resolves t excluded selected)
    (h' : s'.Resolves t excluded' selected') (hexcluded : ∀ p, excluded p → excluded' p) :
    s.excludedFiles ≤ s'.excludedFiles := by
  rw [h.excludedFiles_eq, h'.excludedFiles_eq]
  exact List.countP_mono_left fun p _ hp => by simpa using hexcluded p (by simpa using hp)

theorem excluded_counts_eq (h : s.Resolves t excluded selected)
    (h' : s'.Resolves t excluded' selected') (hexcluded : ∀ p, excluded p ↔ excluded' p)
    (d : String) : (s'.counts d).excluded = (s.counts d).excluded :=
  (h'.excluded_counts_le h (fun p => (hexcluded p).2) d).antisymm
    (h.excluded_counts_le h' (fun p => (hexcluded p).1) d)

theorem total_counts_eq (h : s.Resolves t excluded selected)
    (h' : s'.Resolves t excluded' selected') (hexcluded : ∀ p, excluded p ↔ excluded' p)
    (d : String) : (s'.counts d).total = (s.counts d).total := by
  have hsum := h.total_add_excluded_counts h' d
  have heq := h.excluded_counts_eq h' hexcluded d
  omega

theorem widens (h : s.Resolves t excluded selected) (h' : s'.Resolves t excluded' selected')
    (hexcluded : ∀ p, excluded p ↔ excluded' p) (hselected : ∀ p, selected p → selected' p) :
    s.Widens s' where
  sublist_files := h.sublist_files h' hselected
  total_eq := h.total_counts_eq h' hexcluded
  excluded_eq := h.excluded_counts_eq h' hexcluded
  excludedFiles_eq := (h'.excludedFiles_le h fun p => (hexcluded p).2).antisymm
    (h.excludedFiles_le h' fun p => (hexcluded p).1)

end Resolves

/-- Files picked besides are gained as far as they can be, files excluded besides are all that is
lost, more patterns to include lose nothing, and with the filters off no pattern counts. -/
theorem ofEntries_monotone [Glob.Limit] (es : List Entry) (includes excludes : List String)
    (picked barred : TextSet) (on : Bool) :
    let choice : Choice := ⟨picked, barred, on⟩
    let s := ofEntries es includes excludes choice
    (∀ picked' : TextSet, (∀ q ∈ picked, q ∈ picked') →
      let s' := ofEntries es includes excludes ⟨picked', barred, on⟩
      s.Widens s' ∧ ∀ f, f ∈ s'.files ∧ f ∉ s.files ↔
        f ∈ (Tree.ofEntries es).filePaths ∧ ¬ choice.Excludes excludes f ∧ f ∉ s.files ∧
          ∃ q ∈ picked', q ∉ picked ∧ Path.normalize q = some f) ∧
    (∀ (excludes' : List String) (barred' : TextSet), excludes ⊆ excludes' →
      (∀ q ∈ barred, q ∈ barred') →
      let choice' : Choice := ⟨picked, barred', on⟩
      let s' := ofEntries es includes excludes' choice'
      s'.files.Sublist s.files ∧
        (∀ f ∈ s.files, f ∉ s'.files → choice'.Excludes excludes' f) ∧
        ∀ d, (s.counts d).excluded ≤ (s'.counts d).excluded) ∧
    (∀ includes' : List String, (∃ g ∈ includes, Text.isBlankText g = false) →
      includes ⊆ includes' → s.Widens (ofEntries es includes' excludes choice)) ∧
    (on = false → ∀ includes' excludes' : List String,
      ofEntries es includes' excludes' choice = s) := by
  intro choice s
  have hresolves := ofTree_resolves (Tree.shaped_ofEntries es)
    fun p hp => Tree.normalize_of_mem_filePaths hp
  have h : s.Resolves _ _ _ := hresolves includes excludes choice
  refine ⟨?picked, ?excluded, ?included, ?off⟩
  case picked =>
    intro picked' hpicked s'
    have h' : s'.Resolves _ _ _ := hresolves includes excludes { choice with picked := picked' }
    have hselects := choice.selects_pick_iff includes excludes hpicked
    refine ⟨h.widens h' (fun _ => .rfl) fun p hp => (hselects p).2 (.inl hp), fun f => ?_⟩
    rw [h'.mem_files_iff, hselects, h.mem_files_iff]
    constructor
    · rintro ⟨⟨hf, hold | hnew⟩, hout⟩
      · exact absurd ⟨hf, hold⟩ hout
      · exact ⟨hf, hnew.1, hout, hnew.2⟩
    · rintro ⟨hf, hfree, hout, hnew⟩
      exact ⟨⟨hf, .inr ⟨hfree, hnew⟩⟩, hout⟩
  case excluded =>
    intro excludes' barred' hexcludes hbarred choice' s'
    have h' : s'.Resolves _ _ _ := hresolves includes excludes' choice'
    have hexcluded (p : String) (hp : choice.Excludes excludes p) : choice'.Excludes excludes' p :=
      hp.mono hbarred hexcludes
    refine ⟨h'.sublist_files h fun p hp => ?_, fun f hf hout => ?_,
      h.excluded_counts_le h' hexcluded⟩
    · exact ⟨fun hold => hp.1 (hexcluded p hold), hp.2⟩
    · obtain ⟨hfile, hselects⟩ := h.mem_files_iff.1 hf
      by_contra hfree
      exact hout (h'.mem_files_iff.2 ⟨hfile, hfree, hselects.2⟩)
  case included =>
    intro includes' hsome hincludes
    exact h.widens (hresolves includes' excludes choice) (fun _ => .rfl)
      fun p hp => hp.mono_includes hsome hincludes
  case off =>
    intro hoff includes' excludes'
    exact congrArg (ofRule (.ofEntries es))
      (Choice.decide_eq_of_filtersOn_eq_false (c := choice.normalized) hoff _ _)

theorem ofEntries_monotone_each :
    let es : List Entry := [⟨"a/key.md", .file, {}⟩, ⟨"a/x.md", .file, {}⟩, ⟨"b.md", .file, {}⟩]
    let choice : Choice := ⟨.ofList ["b.md"], .ofList ["a/key.md"], true⟩
    let picked : TextSet := .ofList ["./a/x.md", "a/key.md", "b.md"]
    let barred : TextSet := .ofList ["a/key.md", "b.md/"]
    let s := ofEntries es ["b*"] [] choice
    let sPicked := ofEntries es ["b*"] [] { choice with picked }
    let sBarred := ofEntries es ["b*"] ["*.txt"] { choice with barred }
    (s.Widens sPicked ∧ "a/x.md" ∈ sPicked.files ∧ "a/x.md" ∉ s.files) ∧
      (sBarred.files.Sublist s.files ∧ { choice with barred }.Excludes ["*.txt"] "b.md") ∧
      s.Widens (ofEntries es ["b*", "**"] [] choice) ∧
      ofEntries es [] ["**"] { choice with filtersOn := false } =
        ofEntries es ["b*"] [] { choice with filtersOn := false } := by
  intro es choice picked barred s sPicked sBarred
  have hincludes : ∃ g ∈ ["b*"], Text.isBlankText g = false := by decide +kernel
  have hgained : "a/x.md" ∈ (Tree.ofEntries es).filePaths ∧ ¬ choice.Excludes [] "a/x.md" ∧
      "a/x.md" ∉ s.files ∧
      ∃ q ∈ picked.toList, q ∉ choice.picked ∧ Path.normalize q = some "a/x.md" := by
    decide +kernel
  have hlost : "b.md" ∈ s.files ∧ "b.md" ∉ sBarred.files := by decide +kernel
  obtain ⟨hpicked, hbarred, hincluded, -⟩ := ofEntries_monotone es ["b*"] [] choice.picked
    choice.barred true
  obtain ⟨-, -, -, hoff⟩ := ofEntries_monotone es ["b*"] [] choice.picked choice.barred false
  obtain ⟨hwidens, hgains⟩ := hpicked picked (by decide +kernel)
  obtain ⟨hsublist, hloses, -⟩ := hbarred ["*.txt"] barred (by decide +kernel) (by decide +kernel)
  exact ⟨⟨hwidens, (hgains "a/x.md").2 hgained⟩, ⟨hsublist, hloses "b.md" hlost.1 hlost.2⟩,
    hincluded ["b*", "**"] hincludes (by simp), hoff rfl [] ["**"]⟩

end Selection

end TreeSelection
