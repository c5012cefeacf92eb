import TreeSelection.Proofs.Explorer.Toggling

namespace TreeSelection

def Edit.keepsPicked : Edit → Bool
  | .load _ _ | .reset | .toggleFile _ | .toggleDirectory _ | .deselectAll => false
  | .setMasks _ _ | .setFilters _ | .selectAll | .toggleCollapsed _ | .collapseAll | .expandAll
  | .search _ | .flagSecrets _ | .setConfig _ => true

namespace Explorer

structure PicksAll (e : Explorer) (t : Tree) : Prop where
  tree : e.tree = t
  picked : ∀ f ∈ t.filePaths, f ∈ e.picked

/-- All files that are not excluded are selected, in the order of the tree, and with them the
directories that have such files. -/
structure SelectsAll (e : Explorer) : Prop where
  files_eq : e.selection.files = e.tree.filePaths.filter (!e.isExcluded ·)
  state_eq : ∀ d ∈ e.tree.dirPaths, (∃ f, e.Selectable d f) → e.selection.state d = .checked

variable {e : Explorer} {t : Tree}

theorem picksAll_selectAll (e : Explorer) : e.selectAll.PicksAll e.tree where
  tree := rfl
  picked _ hf := TextSet.mem_union.2 (.inl (TextSet.mem_ofList.2 hf))

theorem PicksAll.selectAll (h : e.PicksAll t) : e.selectAll.PicksAll t :=
  h.tree ▸ picksAll_selectAll e

section

variable [Glob.Limit]

theorem PicksAll.perform (h : e.PicksAll t) {edit : Edit} (hedit : edit.keepsPicked = true) :
    (e.perform edit).PicksAll t := by
  cases edit with
  | load repository entries => cases hedit
  | reset => cases hedit
  | toggleFile path => cases hedit
  | toggleDirectory path => cases hedit
  | deselectAll => cases hedit
  | selectAll => exact h.selectAll
  | toggleCollapsed path =>
    simp only [Explorer.perform, Explorer.toggleCollapsed]
    split <;> exact ⟨h.tree, h.picked⟩
  | _ => exact ⟨h.tree, h.picked⟩

theorem PicksAll.run (h : e.PicksAll t) {edits : List Edit}
    (hedits : ∀ edit ∈ edits, edit.keepsPicked = true) : (e.run edits).PicksAll t :=
  run_invariant (P := (·.PicksAll t)) h hedits fun _ _ h hedit => h.perform hedit

theorem Coherent.selectsAll (h : e.Coherent) (hanchored : e.Anchored) (hall : e.PicksAll e.tree) :
    e.SelectsAll := by
  have hfiles (f : String) : f ∈ e.selection.files ↔
      f ∈ e.tree.filePaths ∧ e.isExcluded f = false := by
    rw [h.mem_files_iff hanchored]
    constructor
    · rintro ⟨hf, hfree, -⟩
      exact ⟨hf, hfree⟩
    · rintro ⟨hf, hfree⟩
      exact ⟨hf, hfree, .inl (hall.picked f hf)⟩
  refine ⟨(h.resolves hanchored).files_eq.trans (List.filter_congr fun f hf => ?_),
    fun d hd hsome => (h.state_eq_checked_iff hanchored hd).2 ⟨hsome, fun f hf => ?_⟩⟩
  · rw [Bool.eq_iff_iff, decide_eq_true_iff, hfiles, and_iff_right hf, Bool.not_eq_true']
  · exact (hfiles f).2 ⟨hf.1, hf.2.2⟩

theorem selectsAll_run (config : Config) (before after : List Edit)
    (hafter : ∀ edit ∈ after, edit.keepsPicked = true) :
    let e := (ofConfig config).run before
    let e' := e.selectAll.run after
    e'.tree = e.tree ∧ e'.SelectsAll := by
  intro e e'
  have hall : e'.PicksAll e.tree := (picksAll_selectAll e).run hafter
  have hselect : e.selectAll.Coherent := (coherent_run config before).pick _
  have h : e'.Coherent := hselect.run after
  have hanchored : e'.Anchored := (anchored_run config before).selectAll.run hselect after
  exact ⟨hall.tree, h.selectsAll hanchored (hall.tree.symm ▸ hall)⟩

end

theorem selectsAll_run_masked :
    let config : Config := { excludes := [] }
    let repository : Repository := ⟨"o", "r", none⟩
    let es : List Entry := [⟨"a/b.md", .file, {}⟩, ⟨"a/key.md", .file, {}⟩, ⟨"a/logo.png", .file, {}⟩,
      ⟨"c.lock", .file, {}⟩, ⟨"d/e.md", .file, {}⟩]
    let before : List Edit := [.load repository es, .toggleFile "a/b.md", .setMasks ["none"] ["d/**"]]
    let after : List Edit := [.setFilters false, .flagSecrets ["./a/key.md"], .toggleCollapsed "a",
      .setMasks ["none"] ["*.lock"], .setConfig { barBinary := false }, .selectAll, .search "x",
      .setFilters true]
    let e := (((ofConfig config).run before).selectAll).run after
    (∀ edit ∈ after, edit.keepsPicked = true) ∧ e.selection.files = ["a/b.md", "d/e.md"] ∧
      e.selection.state "a" = .checked := by
  intro config repository es before after e
  have hafter : ∀ edit ∈ after, edit.keepsPicked = true := by decide
  obtain ⟨-, hselects⟩ := selectsAll_run config before after hafter
  have hfree : e.tree.filePaths.filter (!e.isExcluded ·) = ["a/b.md", "d/e.md"] := by decide +kernel
  have hd : "a" ∈ e.tree.dirPaths := by decide +kernel
  have hsome : e.Selectable "a" "a/b.md" := by
    rw [selectable_iff]
    decide +kernel
  exact ⟨hafter, hselects.files_eq.trans hfree, hselects.state_eq "a" hd ⟨_, hsome⟩⟩

end Explorer

end TreeSelection
