import TreeSelection.Proofs.Explorer.Refreshing
import TreeSelection.Proofs.Rows.Folding

namespace TreeSelection

namespace TextSet

variable {s : TextSet} {p q : String}

theorem toggle_toggle (s : TextSet) (p : String) : (s.toggle p).toggle p = s := by
  refine ext fun x => ?_
  by_cases hx : x = p <;> simp [hx]

theorem mem_toggle_of_ne (h : q ≠ p) : q ∈ s.toggle p ↔ q ∈ s := by
  simp [h]

end TextSet

namespace Tree

variable {d : Node} {collapsed : TextSet}

theorem closes_toggle_of_not_mem (h : d.label.path ∉ collapsed) :
    Closes d collapsed (collapsed.toggle d.label.path) where
  not_mem := h
  mem := by simp [h]
  mem_iff _ := TextSet.mem_toggle_of_ne

theorem closes_toggle_of_mem (h : d.label.path ∈ collapsed) :
    Closes d (collapsed.toggle d.label.path) collapsed where
  not_mem := by simp [h]
  mem := h
  mem_iff _ hp := (TextSet.mem_toggle_of_ne hp).symm

end Tree

namespace Explorer

variable {e : Explorer} {d : Node} {path : String}

/-- With nothing searched for, a call turns one directory over. The rows stay as they are when it is
no directory of the tree, or has no row; otherwise the rows of what is below it go, or come back
when it was collapsed. A second call for it, in any spelling, leaves nothing of the first. -/
structure TurnsFold (e : Explorer) (path : String) : Prop where
  of_not_directory : (∀ p ∈ e.tree.dirPaths, Path.normalize path ≠ some p) →
    (e.toggleCollapsed path).rows = e.rows
  of_hidden : ∀ d ∈ e.tree.allNodes, d.isDir = true → Path.normalize path = some d.label.path →
    (∀ r ∈ e.rows, r.node ≠ d) → (e.toggleCollapsed path).rows = e.rows
  of_expanded : ∀ d ∈ e.tree.allNodes, d.isDir = true → Path.normalize path = some d.label.path →
    (∃ r ∈ e.rows, r.node = d) → d.label.path ∉ e.collapsed →
      Row.Folds d e.rows (e.toggleCollapsed path).rows
  of_collapsed : ∀ d ∈ e.tree.allNodes, d.isDir = true → Path.normalize path = some d.label.path →
    (∃ r ∈ e.rows, r.node = d) → d.label.path ∈ e.collapsed →
      Row.Folds d (e.toggleCollapsed path).rows e.rows
  again : ∀ q, Path.normalize q = Path.normalize path →
    (e.toggleCollapsed path).toggleCollapsed q = e

theorem toggleCollapsed_of_normalize {p : String} (h : Path.normalize path = some p) :
    e.toggleCollapsed path = { e with collapsed := e.collapsed.toggle p } := by
  rw [toggleCollapsed, h]

theorem rows_toggleCollapsed {p : String} (h : Path.normalize path = some p) :
    (e.toggleCollapsed path).rows = e.tree.rows (e.collapsed.toggle p) e.search := by
  rw [toggleCollapsed_of_normalize h, rows]

theorem toggleCollapsed_again {q : String} (h : Path.normalize q = Path.normalize path) :
    (e.toggleCollapsed path).toggleCollapsed q = e := by
  cases hpath : Path.normalize path with
  | none => simp only [toggleCollapsed, h, hpath]
  | some p =>
    rw [toggleCollapsed_of_normalize hpath, toggleCollapsed_of_normalize (h.trans hpath)]
    exact congrArg (fun collapsed => { e with collapsed }) (e.collapsed.toggle_toggle p)

theorem rows_toggleCollapsed_of_not_directory
    (h : ∀ p ∈ e.tree.dirPaths, Path.normalize path ≠ some p) :
    (e.toggleCollapsed path).rows = e.rows := by
  cases hpath : Path.normalize path with
  | none => simp only [toggleCollapsed, hpath]
  | some p =>
    rw [rows_toggleCollapsed hpath, rows]
    refine Tree.rows_congr (fun q hq => ?_) _
    have hne : q ≠ p := fun heq => h q hq (by rw [hpath, heq])
    rw [Bool.eq_iff_iff, TextSet.contains_iff, TextSet.contains_iff]
    exact TextSet.mem_toggle_of_ne hne

section

variable [Glob.Limit]
variable (h : e.Sound) (hsearch : Text.trim e.search = "") (hd : d ∈ e.tree.allNodes)

include h hsearch hd

theorem exists_row_iff : (∃ r ∈ e.rows, r.node = d) ↔ e.tree.IsUncovered e.collapsed d := by
  have hshown : e.tree.IsShown e.collapsed e.search d ↔ e.tree.IsUncovered e.collapsed d := by
    rw [Tree.IsShown, if_pos hsearch]
  simp only [rows, Tree.mem_rows_iff h.shaped.nodup_allNodes]
  constructor
  · rintro ⟨r, ⟨-, huncovered, -⟩, rfl⟩
    exact hshown.1 huncovered
  · intro huncovered
    exact ⟨⟨(e.tree.ancestors d).length, d⟩, ⟨hd, hshown.2 huncovered, rfl⟩, rfl⟩

variable (hpath : Path.normalize path = some d.label.path)

include hpath

theorem rows_toggleCollapsed_of_hidden (hhidden : ∀ r ∈ e.rows, r.node ≠ d) :
    (e.toggleCollapsed path).rows = e.rows := by
  have hcovered : ¬ e.tree.IsUncovered e.collapsed d := fun huncovered =>
    have ⟨r, hr, hnode⟩ := (exists_row_iff h hsearch hd).2 huncovered
    hhidden r hr hnode
  rw [rows_toggleCollapsed hpath, rows]
  by_cases hmem : d.label.path ∈ e.collapsed
  · -- whether `d` is covered hangs on what is above it, and so not on itself
    have hcloses := Tree.closes_toggle_of_mem hmem
    have hsame := hcloses.isUncovered_iff h.shaped (Path.not_isBelow_self d.label.path)
    exact (hcloses.rows_eq h.shaped hd hsearch (hsame.not.1 hcovered)).symm
  · exact (Tree.closes_toggle_of_not_mem hmem).rows_eq h.shaped hd hsearch hcovered

theorem folds_toggleCollapsed_of_expanded (hshown : ∃ r ∈ e.rows, r.node = d)
    (hmem : d.label.path ∉ e.collapsed) : Row.Folds d e.rows (e.toggleCollapsed path).rows := by
  rw [rows_toggleCollapsed hpath, rows]
  exact (Tree.closes_toggle_of_not_mem hmem).folds_rows h.shaped hd hsearch
    ((exists_row_iff h hsearch hd).1 hshown)

theorem folds_toggleCollapsed_of_collapsed (hshown : ∃ r ∈ e.rows, r.node = d)
    (hmem : d.label.path ∈ e.collapsed) : Row.Folds d (e.toggleCollapsed path).rows e.rows := by
  have hcloses := Tree.closes_toggle_of_mem hmem
  have hsame := hcloses.isUncovered_iff h.shaped (Path.not_isBelow_self d.label.path)
  rw [rows_toggleCollapsed hpath, rows]
  exact hcloses.folds_rows h.shaped hd hsearch (hsame.1 ((exists_row_iff h hsearch hd).1 hshown))

end

theorem turnsFold_run [Glob.Limit] (config : Config) (edits : List Edit) (path : String)
    (hsearch : Text.trim ((ofConfig config).run edits).search = "") :
    ((ofConfig config).run edits).TurnsFold path where
  of_not_directory := rows_toggleCollapsed_of_not_directory
  of_hidden _ hd _ := rows_toggleCollapsed_of_hidden (coherent_run config edits).toSound hsearch hd
  of_expanded _ hd _ :=
    folds_toggleCollapsed_of_expanded (coherent_run config edits).toSound hsearch hd
  of_collapsed _ hd _ :=
    folds_toggleCollapsed_of_collapsed (coherent_run config edits).toSound hsearch hd
  again _ := toggleCollapsed_again

theorem turnsFold_run_nested :
    let repository : Repository := ⟨"o", "r", none⟩
    let es : List Entry := [⟨"a/b/c.md", .file, {}⟩, ⟨"a/d.md", .file, {}⟩, ⟨"e.md", .file, {}⟩]
    let edits : List Edit := [.load repository es, .toggleCollapsed "a/b", .search " \t"]
    let e := (ofConfig {}).run edits
    let e' := e.toggleCollapsed "./a//"
    (∃ d ∈ e.tree.allNodes, d.label.path = "a" ∧ Row.Folds d e.rows e'.rows) ∧
      (e'.toggleCollapsed "a/b").rows = e'.rows ∧ e'.toggleCollapsed ".\\a" = e ∧
      (e.rows.map (·.node.label.path) = ["a", "a/b", "a/d.md", "e.md"]) ∧
      e'.rows.map (·.node.label.path) = ["a", "e.md"] := by
  intro repository es edits e e'
  have hblank : Text.trim e.search = "" ∧ Text.trim e'.search = "" := by decide +kernel
  have hturns : e.TurnsFold "./a//" := turnsFold_run {} edits _ hblank.1
  have hrun : (ofConfig {}).run (edits ++ [.toggleCollapsed "./a//"]) = e' := by
    rw [run_append]
    rfl
  have hturns' : e'.TurnsFold "a/b" := by
    have hturns' := turnsFold_run {} (edits ++ [.toggleCollapsed "./a//"]) "a/b"
    rw [hrun] at hturns'
    exact hturns' hblank.2
  have hshown : ∃ d ∈ e.tree.allNodes, d.isDir = true ∧ d.label.path = "a" ∧
      (∃ r ∈ e.rows, r.node = d) ∧ d.label.path ∉ e.collapsed := by decide +kernel
  have hhidden : ∃ d ∈ e'.tree.allNodes, d.isDir = true ∧ d.label.path = "a/b" ∧
      ∀ r ∈ e'.rows, r.node ≠ d := by decide +kernel
  have hspelled : Path.normalize "./a//" = some "a" ∧ Path.normalize "a/b" = some "a/b" ∧
      Path.normalize ".\\a" = Path.normalize "./a//" := by decide +kernel
  refine ⟨?_, ?_, hturns.again _ hspelled.2.2, ?_, ?_⟩
  · obtain ⟨d, hd, hdir, hpath, hrow, hmem⟩ := hshown
    exact ⟨d, hd, hpath, hturns.of_expanded d hd hdir (hpath ▸ hspelled.1) hrow hmem⟩
  · obtain ⟨d, hd, hdir, hpath, hrow⟩ := hhidden
    exact hturns'.of_hidden d hd hdir (hpath ▸ hspelled.2.1) hrow
  · decide +kernel
  · decide +kernel

end Explorer

end TreeSelection
