import TreeSelection.Explorer.View
import TreeSelection.Proofs.Explorer.Anchoring
import TreeSelection.Proofs.Rows
import TreeSelection.Proofs.Selection.Checking

namespace TreeSelection

namespace Explorer

variable {e : Explorer}

theorem Coherent.decide_eq_excluded_iff_isExcluded [Glob.Limit] (h : e.Coherent)
    (hanchored : e.Anchored) {p : String} (hp : p ∈ e.tree.filePaths) :
    e.choice.normalized.decide e.mask p = .excluded ↔ e.isExcluded p = true := by
  have hbarred : e.choice.normalized.barred = e.barred :=
    TextSet.normalized_eq_self fun q hq => h.normalize_of_mem_filePaths (hanchored.barred q hq)
  rw [Choice.decide_eq_excluded_iff, hbarred, Choice.filtersOn_normalized, isExcluded,
    Mask.rejects_of_normalize _ (h.normalize_of_mem_filePaths hp)]
  rfl

theorem Coherent.decide_eq_selected_iff_mem_files [Glob.Limit] (h : e.Coherent) {p : String}
    (hp : p ∈ e.tree.filePaths) :
    e.choice.normalized.decide e.mask p = .selected ↔ p ∈ e.selection.files := by
  obtain ⟨l, hl, rfl⟩ := List.mem_map.1 hp
  rw [h.selection, Selection.ofTree, Selection.mem_files_ofRule _ _ hl]

theorem Coherent.isSelected_iff [Glob.Limit] (h : e.Coherent) {p : String} :
    e.selection.isSelected p = true ↔ p ∈ e.selection.files := by
  rw [h.selection]
  exact Selection.isSelected_ofRule _ _ p

theorem Coherent.not_isExcluded_of_mem_files [Glob.Limit] (h : e.Coherent) (hanchored : e.Anchored)
    {p : String} (hp : p ∈ e.selection.files) : ¬ e.isExcluded p = true := by
  have hfile := h.mem_filePaths_of_mem_files hp
  rw [← h.decide_eq_excluded_iff_isExcluded hanchored hfile,
    (h.decide_eq_selected_iff_mem_files hfile).2 hp]
  simp

theorem Coherent.resolves [Glob.Limit] (h : e.Coherent) (hanchored : e.Anchored) :
    e.selection.Resolves e.tree (e.isExcluded · = true) (· ∈ e.selection.files) := by
  have hresolves := Selection.ofRule_resolves h.shaped
    (fun p hp => h.decide_eq_excluded_iff_isExcluded hanchored hp)
    (fun p hp => h.decide_eq_selected_iff_mem_files hp)
    (fun p hp => h.not_isExcluded_of_mem_files hanchored hp)
  rwa [← Selection.ofTree, ← h.selection] at hresolves

def Selectable (e : Explorer) (directory f : String) : Prop :=
  f ∈ e.tree.filePaths ∧ Path.IsBelow directory f ∧ e.isExcluded f = false

end Explorer

structure RowView.ShowsFile (row : RowView) (e : Explorer) : Prop where
  listed : row.path ∈ e.tree.filePaths
  checked_iff : row.checkState = .checked ↔ row.path ∈ e.selection.files
  enabled_of_checked : row.checkState = .checked → row.isDisabled = false
  disabled_of_barred : ∀ reason, row.barredFor = some reason → row.isDisabled = true

structure RowView.ShowsDirectory (row : RowView) (e : Explorer) : Prop where
  listed : row.path ∈ e.tree.dirPaths
  disabled_iff : row.isDisabled = true ↔ ¬ ∃ f, e.Selectable row.path f
  checked_iff : row.checkState = .checked ↔
    (∃ f, e.Selectable row.path f) ∧ ∀ f, e.Selectable row.path f → f ∈ e.selection.files
  indeterminate_iff : row.checkState = .indeterminate ↔
    (∃ f, e.Selectable row.path f ∧ f ∈ e.selection.files) ∧
      ∃ f, e.Selectable row.path f ∧ f ∉ e.selection.files
  unchecked_iff : row.checkState = .unchecked ↔
    ∀ f, e.Selectable row.path f → f ∉ e.selection.files

namespace Explorer

variable {e : Explorer}

theorem selectable_iff {directory f : String} : e.Selectable directory f ↔
    f ∈ e.tree.filePaths.filter (Path.IsBelow directory) ∧ ¬ e.isExcluded f = true := by
  simp [Selectable, and_assoc]

theorem Coherent.showsFile [Glob.Limit] (h : e.Coherent) (hanchored : e.Anchored) (term : String)
    (depth : Nat) {l : Label} (hl : .file l ∈ e.tree.allNodes) :
    (e.rowView term ⟨depth, .file l⟩).ShowsFile e := by
  have hchecked : (e.rowView term ⟨depth, .file l⟩).checkState = .checked ↔
      l.path ∈ e.selection.files := by
    show (if e.selection.isSelected l.path then CheckState.checked else .unchecked) = _ ↔ _
    rw [← h.isSelected_iff]
    simp
  exact {
    listed := List.mem_map_of_mem (Tree.mem_files.2 hl)
    checked_iff := hchecked
    enabled_of_checked := fun hrow => by
      rw [← Bool.not_eq_true]
      exact h.not_isExcluded_of_mem_files hanchored (hchecked.1 hrow)
    disabled_of_barred := fun reason hreason => by
      have hbarred : l.path ∈ e.barred := h.mem_barred_iff.2 ⟨reason, hreason⟩
      show e.isExcluded l.path = true
      simp [isExcluded, hbarred] }

theorem Coherent.showsDirectory [Glob.Limit] (h : e.Coherent) (hanchored : e.Anchored)
    (term : String) (depth : Nat) {l : Label} {children : Tree}
    (hd : .dir l children ∈ e.tree.allNodes) :
    (e.rowView term ⟨depth, .dir l children⟩).ShowsDirectory e := by
  have hlisted : l.path ∈ e.tree.dirPaths := Tree.mem_dirPaths_of_isDir hd rfl
  have hapart (p : String) (hp : p ∈ e.selection.files) : ¬ e.isExcluded p = true :=
    h.not_isExcluded_of_mem_files hanchored hp
  have hcounts := (h.resolves hanchored).counts_eq hlisted
  have hstate : (e.rowView term ⟨depth, .dir l children⟩).checkState =
      (e.selection.counts l.path).state := rfl
  have hdisabled : (e.rowView term ⟨depth, .dir l children⟩).isDisabled =
      (e.selection.counts l.path).isDisabled := rfl
  have hpath : (e.rowView term ⟨depth, .dir l children⟩).path = l.path := rfl
  rw [hcounts] at hstate hdisabled
  refine ⟨hlisted, ?_, ?_, ?_, ?_⟩
  · rw [hdisabled, hpath, Counts.isDisabled_ofPaths_iff]
    simp only [selectable_iff, not_exists, not_and, not_not]
  · rw [hstate, hpath, Counts.state_ofPaths_eq_checked_iff hapart]
    simp only [selectable_iff, and_imp]
  · rw [hstate, hpath, Counts.state_ofPaths_eq_indeterminate_iff hapart]
    simp only [selectable_iff, and_assoc]
  · rw [hstate, hpath, Counts.state_ofPaths_eq_unchecked_iff hapart]
    simp only [selectable_iff, and_imp]

/-- The view tells the truth of the session: its rows of the files and directories that they stand
for, and its counters of the whole tree. -/
structure ShowsSelection (e : Explorer) : Prop where
  fileRows : ∀ row ∈ e.view.rows, row.isDirectory = false → row.ShowsFile e
  directoryRows : ∀ row ∈ e.view.rows, row.isDirectory = true → row.ShowsDirectory e
  totalFiles_eq : e.view.totalFiles = e.tree.filePaths.length
  selectedFiles_eq : e.view.selectedFiles = e.tree.filePaths.countP (· ∈ e.selection.files)
  excludedFiles_eq : e.view.excludedFiles = e.tree.filePaths.countP (e.isExcluded ·)

theorem rows_view (e : Explorer) :
    e.view.rows = e.rows.map (e.rowView (Tree.searchTerm e.search)) := by
  simp only [view]

theorem exists_of_mem_rows_view {row : RowView} (h : row ∈ e.view.rows) :
    ∃ depth, ∃ node ∈ e.tree.allNodes,
      e.rowView (Tree.searchTerm e.search) ⟨depth, node⟩ = row := by
  rw [rows_view, List.mem_map] at h
  obtain ⟨⟨depth, node⟩, hr, hrow⟩ := h
  have hnode := (Tree.sublist_rows e.collapsed e.search e.tree).subset (List.mem_map_of_mem hr)
  exact ⟨depth, node, hnode, hrow⟩

theorem showsSelection_run [Glob.Limit] (config : Config) (edits : List Edit) :
    ((ofConfig config).run edits).ShowsSelection := by
  have h := coherent_run config edits
  have hanchored := anchored_run config edits
  have hresolves := h.resolves hanchored
  have hexcluded := hresolves.excludedFiles_eq
  simp only [Bool.decide_eq_true] at hexcluded
  refine ⟨fun row hrow hfile => ?_, fun row hrow hdir => ?_, hresolves.totalFiles_eq, ?_, hexcluded⟩
  · obtain ⟨depth, node, hnode, rfl⟩ := exists_of_mem_rows_view hrow
    cases node with
    | file l => exact h.showsFile hanchored _ depth hnode
    | dir l children => cases hfile
  · obtain ⟨depth, node, hnode, rfl⟩ := exists_of_mem_rows_view hrow
    cases node with
    | file l => cases hdir
    | dir l children => exact h.showsDirectory hanchored _ depth hnode
  · rw [List.countP_eq_length_filter, ← hresolves.files_eq]
    rfl

theorem showsSelection_run_collapsed :
    let repository : Repository := ⟨"o", "r", none⟩
    let es : List Entry := [⟨"a/b.md", .file, {}⟩, ⟨"a/c.md", .file, {}⟩, ⟨"a/key.md", .file, {}⟩]
    let e := (ofConfig {}).run
      [.setMasks ["a/b*"] [], .load repository es, .flagSecrets ["./a/key.md"], .collapseAll]
    ∃ row ∈ e.view.rows, row.isDirectory = true ∧ row.checkState = .indeterminate ∧
      e.Selectable row.path "a/b.md" ∧ ¬ e.Selectable row.path "a/key.md" ∧ row.ShowsDirectory e := by
  intro repository es e
  have hrow : ∃ row ∈ e.view.rows, row.isDirectory = true ∧ row.checkState = .indeterminate ∧
      row.path = "a" := by decide +kernel
  obtain ⟨row, hmem, hdir, hstate, hpath⟩ := hrow
  have hfree : e.Selectable row.path "a/b.md" := by
    rw [hpath, selectable_iff]
    decide +kernel
  have hbarred : ¬ e.Selectable row.path "a/key.md" := by
    rw [hpath, selectable_iff]
    decide +kernel
  exact ⟨row, hmem, hdir, hstate, hfree, hbarred,
    (showsSelection_run {} _).directoryRows row hmem hdir⟩

end Explorer

end TreeSelection
