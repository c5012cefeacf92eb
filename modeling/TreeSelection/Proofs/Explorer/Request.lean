import TreeSelection.Proofs.Explorer.Coherence
import TreeSelection.Proofs.Selection
import TreeSelection.Proofs.Tree.Declared

namespace TreeSelection

namespace Request

variable [Glob.Limit]

theorem compileSet_cleanPatterns (patterns : List String) :
    Glob.compileSet (cleanPatterns patterns) = Glob.compileSet patterns := by
  have hcompile : Glob.compile ∘ Text.trim = Glob.compile := funext Glob.compile_trim
  rw [Glob.compileSet, cleanPatterns, List.filter_filter, List.filter_map, List.map_map, hcompile]
  congr 1
  apply List.filter_congr
  intro p _
  have hblank : Text.isBlankText (Text.trim p) = Text.isBlankText p := by
    rw [Bool.eq_iff_iff, ← Text.trim_eq_empty_iff, ← Text.trim_eq_empty_iff, Text.trim_trim]
  by_cases hp : Text.isBlankText p = true
  · simp [hp, hblank]
  · simp [hp, hblank, mt Text.trim_eq_empty_iff.1 hp]

theorem ofPatterns_cleanPatterns (includes excludes : List String) :
    Mask.ofPatterns (cleanPatterns includes) (cleanPatterns excludes) =
      .ofPatterns includes excludes := by
  simp [Mask.ofPatterns, compileSet_cleanPatterns]

/-- The request exports the files of the tree that are given. -/
structure Exports (r : Request) (t : Tree) (files : List String) : Prop where
  contents : match r.contents with
    | .explicit listed => listed = files
    | .masks => t.filePaths.filter (Mask.ofPatterns r.includes r.excludes).accepts = files
  fileCount : r.fileCount = files.length
  selectedSize : r.selectedSize =
    Number.capped (Number.total ((t.files.filter (·.path ∈ files)).map (·.attrs.size)))

end Request

namespace Explorer

variable {e : Explorer}

section

variable [Glob.Limit]

theorem Coherent.filter_accepts (h : e.Coherent) (hpicked : e.picked = .empty)
    (hbarred : e.barred = .empty) {includes excludes : List String}
    (hpatterns : (includes, excludes) =
      if e.filtersOn then (e.includes, e.excludes) else ([], [])) :
    e.tree.filePaths.filter (Mask.ofPatterns includes excludes).accepts = e.selection.files := by
  rw [h.selection, Selection.ofTree, Selection.files_ofRule]
  apply List.filter_congr
  intro path hpath
  obtain ⟨l, hl, rfl⟩ := List.mem_map.1 hpath
  rw [h.tree] at hl
  rw [Mask.accepts_of_normalize _ (Tree.normalize_path_of_mem_files hl), Bool.eq_iff_iff,
    beq_iff_eq, Choice.decide_eq_selected_iff hpicked hbarred, h.mask]
  show _ ↔ (e.filtersOn = true → _)
  split at hpatterns
  · next hon =>
    cases hpatterns
    simp [hon]
  · next hoff =>
    cases hpatterns
    simp [hoff, Mask.acceptsCanonical_ofPatterns_nil]

theorem Coherent.exports_request? (h : e.Coherent) {format : Option Format} {r : Request}
    (hr : e.request? format = some r) : r.Exports e.tree e.selection.files := by
  have hsize : e.selection.size =
      Number.capped
        (Number.total ((e.tree.files.filter (·.path ∈ e.selection.files)).map (·.attrs.size))) := by
    rw [h.selection]
    exact Selection.size_ofRule _ _
  obtain ⟨repository, -, hr⟩ := Option.map_eq_some_iff.1 hr
  generalize hpatterns :
    (if e.filtersOn then (e.includes, e.excludes) else ([], [])) = patterns at hr
  obtain ⟨includes, excludes⟩ := patterns
  simp only at hr
  split at hr
  · next hempty =>
    obtain ⟨hpicked, hbarred⟩ := Bool.and_eq_true_iff.1 hempty
    have hfiles := h.filter_accepts (TextSet.isEmpty_iff.1 hpicked) (TextSet.isEmpty_iff.1 hbarred)
      hpatterns.symm
    rw [← Request.ofPatterns_cleanPatterns] at hfiles
    subst hr
    exact ⟨hfiles, rfl, hsize⟩
  · subst hr
    exact ⟨rfl, rfl, hsize⟩

theorem exports_request?_run (config : Config) (edits : List Edit) (format : Option Format) :
    let e := (ofConfig config).run edits
    (e.request? format = none ↔ e.repository = none) ∧
      ∀ r, e.request? format = some r → r.Exports e.tree e.selection.files := by
  intro e
  have h : e.Coherent := coherent_run config edits
  refine ⟨Option.map_eq_none_iff, fun r hr => ?_⟩
  exact h.exports_request? hr

end

theorem exports_request?_load :
    let e := (ofConfig { includes := [" **/*.txt", " "] }).run
      [.load ⟨"o", "r", none⟩ [⟨"a/b.txt", .file, ⟨3, false, false⟩⟩, ⟨"a/c.md", .file, {}⟩]]
    ∃ r, e.request? none = some r ∧ r.contents = .masks ∧ r.Exports e.tree ["a/b.txt"] := by
  intro e
  obtain ⟨r, hr, hcontents⟩ := (Option.any_eq_true (·.contents = .masks) (e.request? none)).1
    (by decide +kernel)
  have hfiles : e.selection.files = ["a/b.txt"] := by decide +kernel
  refine ⟨r, hr, of_decide_eq_true hcontents, ?_⟩
  rw [← hfiles]
  exact (exports_request?_run _ _ none).2 r hr

end Explorer

end TreeSelection
