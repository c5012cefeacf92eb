import TreeSelection.Proofs.Selection
import TreeSelection.Proofs.Tree.Below

namespace TreeSelection

section

variable (excluded selected : String → Prop) [DecidablePred excluded] [DecidablePred selected]

def Counts.ofPaths (paths : List String) : Counts :=
  ⟨paths.countP (¬ excluded ·), paths.countP selected, paths.countP excluded⟩

theorem Counts.total_add_excluded_ofPaths (paths : List String) :
    (ofPaths excluded selected paths).total + (ofPaths excluded selected paths).excluded =
      paths.length := by
  have hcount := List.length_eq_countP_add_countP (excluded ·) (l := paths)
  simp only [ofPaths, hcount, Nat.add_comm, decide_eq_true_eq]

variable {excluded selected}

theorem Counts.selected_le_total_ofPaths (h : ∀ p, selected p → ¬ excluded p)
    (paths : List String) :
    (ofPaths excluded selected paths).selected ≤ (ofPaths excluded selected paths).total := by
  apply List.countP_mono_left
  intro p _ hp
  simpa using h p (of_decide_eq_true hp)

theorem Counts.ofPaths_congr {excluded' selected' : String → Prop} [DecidablePred excluded']
    [DecidablePred selected'] {paths : List String}
    (hexcluded : ∀ p ∈ paths, (excluded p ↔ excluded' p))
    (hselected : ∀ p ∈ paths, (selected p ↔ selected' p)) :
    ofPaths excluded selected paths = ofPaths excluded' selected' paths := by
  have htotal : paths.countP (¬ excluded ·) = paths.countP (¬ excluded' ·) :=
    List.countP_congr fun p hp => by simp [hexcluded p hp]
  have hin : paths.countP selected = paths.countP selected' :=
    List.countP_congr fun p hp => by simp [hselected p hp]
  have hout : paths.countP excluded = paths.countP excluded' :=
    List.countP_congr fun p hp => by simp [hexcluded p hp]
  rw [ofPaths, ofPaths, htotal, hin, hout]

end

namespace Tree

variable (rule : String → Decision)

theorem counts_eq_ofPaths (t : Tree) :
    t.counts rule = .ofPaths (rule · = .excluded) (rule · = .selected) t.filePaths := by
  induction t with
  | nil => rfl
  | file l rest ih =>
    rw [counts, ih]
    show Counts.add _ _ = Counts.ofPaths _ _ (l.path :: rest.filePaths)
    cases h : rule l.path <;>
      simp [Decision.counts, Counts.add, Counts.ofPaths, h, Nat.add_comm]
  | dir l children rest ihc ihr =>
    have hpaths : (dir l children rest).filePaths = children.filePaths ++ rest.filePaths :=
      List.map_append
    rw [counts, ihc, ihr, hpaths]
    simp only [Counts.ofPaths, List.countP_append]
    rfl

theorem map_fst_countsByPath (t : Tree) : ((t.countsByPath rule).map (·.1)).Perm t.dirPaths := by
  rw [dirPaths]
  induction t with
  | nil => exact .nil
  | file l rest ih => exact ih
  | dir l children rest ihc ihr =>
    rw [countsByPath, List.map_append, dirs, List.map_cons, List.map_cons, List.map_append]
    exact List.perm_append_comm.trans (.cons _ (ihc.append ihr))

theorem mem_countsByPath {t : Tree} {line : String × Counts} : line ∈ t.countsByPath rule ↔
    ∃ d ∈ t.allNodes, d.isDir = true ∧ line = (d.label.path, d.children.counts rule) := by
  induction t with
  | nil => simp [countsByPath, allNodes]
  | file l rest ih => simp [countsByPath, allNodes, Node.isDir, ih]
  | dir l children rest ihc ihr =>
    rw [countsByPath, List.perm_append_comm.mem_iff]
    simp [allNodes, Node.isDir, Node.label, Node.children, ihc, ihr, or_and_right, exists_or]

theorem Shaped.counts_children {above : String} {t : Tree} (h : Shaped above t) {d : Node}
    (hd : d ∈ t.allNodes) (hdir : d.isDir = true) : d.children.counts rule =
      .ofPaths (rule · = .excluded) (rule · = .selected)
        (t.filePaths.filter (Path.IsBelow d.label.path)) := by
  rw [counts_eq_ofPaths, h.filter_isBelow_filePaths hd hdir]

variable {rule} {rule' : String → Decision} {t : Tree}

theorem counts_congr (h : ∀ p ∈ t.filePaths, rule p = rule' p) :
    t.counts rule = t.counts rule' := by
  rw [counts_eq_ofPaths, counts_eq_ofPaths]
  exact Counts.ofPaths_congr (fun p hp => by rw [h p hp]) (fun p hp => by rw [h p hp])

theorem countsByPath_congr (h : ∀ p ∈ t.filePaths, rule p = rule' p) :
    t.countsByPath rule = t.countsByPath rule' := by
  induction t with
  | nil => rfl
  | file l rest ih => exact ih fun p hp => h p (List.mem_cons_of_mem _ hp)
  | dir l children rest ihc ihr =>
    have hpaths : (dir l children rest).filePaths = children.filePaths ++ rest.filePaths :=
      List.map_append
    rw [hpaths, List.forall_mem_append] at h
    rw [countsByPath, countsByPath, counts_congr h.1, ihc h.1, ihr h.2]

end Tree

theorem Selection.ofRule_congr {t : Tree} {rule rule' : String → Decision}
    (h : ∀ p ∈ t.filePaths, rule p = rule' p) : ofRule t rule = ofRule t rule' := by
  have hfiles : t.selectedFiles rule = t.selectedFiles rule' :=
    List.filter_congr fun l hl => by rw [h l.path (List.mem_map_of_mem hl)]
  simp only [ofRule_eq, Tree.addTo, hfiles, Tree.counts_congr h, Tree.countsByPath_congr h]

end TreeSelection
