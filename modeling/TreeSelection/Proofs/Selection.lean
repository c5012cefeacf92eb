import TreeSelection.Proofs.Glob.Mask
import TreeSelection.Selection.Basic

namespace TreeSelection

namespace Counts

theorem add_def (c d : Counts) :
    c + d = ⟨c.total + d.total, c.selected + d.selected, c.excluded + d.excluded⟩ := rfl

@[simp] theorem zero_add (c : Counts) : {} + c = c := by
  simp [add_def]

@[simp] theorem add_zero (c : Counts) : c + {} = c := rfl

theorem add_assoc (a b c : Counts) : a + b + c = a + (b + c) := by
  simp [add_def, Nat.add_assoc]

end Counts

namespace Tree

variable (rule : String → Decision)

def counts : Tree → Counts
  | nil => {}
  | file l rest => (rule l.path).counts + rest.counts
  | dir _ children rest => children.counts + rest.counts

def countsByPath : Tree → List (String × Counts)
  | nil => []
  | file _ rest => rest.countsByPath
  | dir l children rest =>
    rest.countsByPath ++ (l.path, children.counts rule) :: children.countsByPath

def selectedFiles (t : Tree) : List Label := t.files.filter fun l => rule l.path == .selected

def addTo (t : Tree) (s : Selection) : Selection :=
  let selected := t.selectedFiles rule
  { s with
    files := s.files ++ selected.map (·.path)
    size := (selected.map (·.attrs.size)).foldl (fun sum size => Number.capped (sum + size)) s.size
    totalFiles := s.totalFiles + t.files.length
    directories := t.countsByPath rule ++ s.directories
    index := (TextSet.ofList (selected.map (·.path))).union s.index }

theorem addTo_nil (s : Selection) : nil.addTo rule s = s := by
  have hindex : (TextSet.ofList []).union s.index = s.index := rfl
  simp [addTo, selectedFiles, files, countsByPath, hindex]

theorem addTo_file (l : Label) (rest : Tree) (s : Selection) :
    (file l rest).addTo rule s = rest.addTo rule (s.passFile l (rule l.path)) := by
  by_cases h : rule l.path = .selected
  · have hselected : (file l rest).selectedFiles rule = l :: rest.selectedFiles rule := by
      simp [selectedFiles, files, h]
    have hindex : (TextSet.ofList (((file l rest).selectedFiles rule).map (·.path))).union s.index =
        (TextSet.ofList ((rest.selectedFiles rule).map (·.path))).union (s.index.insert l.path) :=
      TextSet.ext fun p => by simp [hselected, or_assoc, or_left_comm]
    simp only [addTo, hindex]
    simp [hselected, Selection.passFile, h, files, countsByPath, Nat.add_assoc, Nat.add_comm]
  · have hselected : (file l rest).selectedFiles rule = rest.selectedFiles rule := by
      simp [selectedFiles, files, h]
    simp [addTo, hselected, Selection.passFile, h, files, countsByPath, Nat.add_assoc,
      Nat.add_comm]

theorem addTo_dir (l : Label) (children rest : Tree) (s : Selection) :
    (dir l children rest).addTo rule s =
      rest.addTo rule ((children.addTo rule s).leaveDirectory l.path (children.counts rule)) := by
  have hselected : (dir l children rest).selectedFiles rule =
      children.selectedFiles rule ++ rest.selectedFiles rule := List.filter_append _ _
  have hindex : (TextSet.ofList (((dir l children rest).selectedFiles rule).map (·.path))).union
      s.index = (TextSet.ofList ((rest.selectedFiles rule).map (·.path))).union
        ((TextSet.ofList ((children.selectedFiles rule).map (·.path))).union s.index) :=
    TextSet.ext fun p => by simp [hselected, or_assoc, or_left_comm]
  simp only [addTo, hindex]
  simp [hselected, Selection.leaveDirectory, files, countsByPath, Nat.add_assoc]

theorem visit_eq (t : Tree) (c : Counts) (s : Selection) :
    t.visit rule c s = (c + t.counts rule, t.addTo rule s) := by
  induction t generalizing c s with
  | nil => rw [visit, addTo_nil, counts, Counts.add_zero]
  | file l rest ih => rw [visit, ih, addTo_file, counts, Counts.add_assoc]
  | dir l children rest ihc ihr =>
    rw [addTo_dir, counts, ← Counts.add_assoc]
    simp only [visit, ihc, ihr, Counts.zero_add]

end Tree

namespace Selection

variable (t : Tree) (rule : String → Decision)

theorem ofRule_eq : ofRule t rule =
    { t.addTo rule {} with excludedFiles := (t.counts rule).excluded } := by
  rw [ofRule, Tree.visit_eq, Counts.zero_add]

theorem files_ofRule : (ofRule t rule).files = t.filePaths.filter (rule · == .selected) := by
  rw [ofRule_eq, Tree.filePaths, List.filter_map]
  exact List.nil_append _

theorem totalFiles_ofRule : (ofRule t rule).totalFiles = t.files.length := by
  rw [ofRule_eq]
  exact Nat.zero_add _

theorem excludedFiles_ofRule : (ofRule t rule).excludedFiles = (t.counts rule).excluded := by
  rw [ofRule_eq]

theorem directories_ofRule : (ofRule t rule).directories = t.countsByPath rule := by
  rw [ofRule_eq]
  exact List.append_nil _

theorem mem_files_ofRule {l : Label} (hl : l ∈ t.files) :
    l.path ∈ (ofRule t rule).files ↔ rule l.path = .selected := by
  rw [files_ofRule, List.mem_filter, beq_iff_eq]
  exact and_iff_right (List.mem_map_of_mem hl)

theorem isSelected_ofRule (p : String) :
    (ofRule t rule).isSelected p = true ↔ p ∈ (ofRule t rule).files := by
  have hempty : p ∉ TextSet.empty := TextSet.not_mem_empty
  rw [isSelected, ofRule_eq, TextSet.contains_iff]
  simp [Tree.addTo, hempty]

theorem size_ofRule : (ofRule t rule).size =
    Number.capped
      (Number.total ((t.files.filter (·.path ∈ (ofRule t rule).files)).map (·.attrs.size))) := by
  have hfilter : t.selectedFiles rule = t.files.filter (·.path ∈ (ofRule t rule).files) := by
    apply List.filter_congr
    intro l hl
    rw [Bool.eq_iff_iff, beq_iff_eq, decide_eq_true_iff, mem_files_ofRule t rule hl]
  rw [← hfilter, ← Number.cappedTotal_eq, ofRule_eq]
  rfl

end Selection

theorem Choice.decide_eq_excluded_iff {c : Choice} {mask : Mask} {path : String} :
    c.decide mask path = .excluded ↔
      (c.barred.contains path || c.filtersOn && mask.rejectsCanonical path) = true := by
  rw [Choice.decide]
  split
  · next h => exact iff_of_true rfl h
  · next h =>
    refine iff_of_false ?_ h
    split <;> simp

theorem Choice.decide_eq_selected_iff {c : Choice} (hpicked : c.picked = .empty)
    (hbarred : c.barred = .empty) (m : Mask) (path : String) :
    c.normalized.decide m path = .selected ↔
      (c.filtersOn = true → m.acceptsCanonical path = true) := by
  obtain ⟨picked, barred, on⟩ := c
  obtain rfl : picked = .empty := hpicked
  obtain rfl : barred = .empty := hbarred
  have hempty : TextSet.empty.normalized.contains path = false := rfl
  simp only [decide, normalized, hempty, Bool.false_or]
  cases on with
  | false => simp
  | true =>
    cases haccepts : m.acceptsCanonical path with
    | true => simp [m.not_rejectsCanonical_of_acceptsCanonical haccepts]
    | false =>
      cases m.rejectsCanonical path <;> simp

end TreeSelection
