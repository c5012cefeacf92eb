import TreeSelection.Proofs.Selection.Counting
import TreeSelection.Proofs.Tree.Declared

namespace TreeSelection

theorem TextSet.mem_normalized {s : TextSet} {p : String} :
    p ∈ s.normalized ↔ ∃ q ∈ s, Path.normalize q = some p := by
  rw [normalized, mem_ofList, List.mem_filterMap]
  rfl

theorem TextSet.normalized_eq_self {s : TextSet} (h : ∀ p ∈ s, Path.normalize p = some p) :
    s.normalized = s := by
  refine TextSet.ext fun p => mem_normalized.trans ⟨?_, fun hp => ⟨p, hp, h p hp⟩⟩
  rintro ⟨q, hq, hpath⟩
  rw [h q hq] at hpath
  exact Option.some.inj hpath ▸ hq

namespace Choice

section

variable [Glob.Limit] (c : Choice) (includes excludes : List String) (path : String)

def Excludes : Prop :=
  (∃ q ∈ c.barred, Path.normalize q = some path) ∨
    c.filtersOn = true ∧
      ∃ g ∈ excludes, Text.isBlankText g = false ∧ (Glob.compile g).test path = true

/-- The path is not excluded, and it is picked, or the filters are off or include everything, or a
pattern to include matches it. -/
def Selects : Prop :=
  ¬ c.Excludes excludes path ∧
    ((∃ q ∈ c.picked, Path.normalize q = some path) ∨ c.filtersOn = false ∨
      (∀ g ∈ includes, Text.isBlankText g = true) ∨
      ∃ g ∈ includes, (Glob.compile g).test path = true)

instance : DecidablePred (c.Excludes excludes) := fun path =>
  inferInstanceAs (Decidable ((∃ q ∈ c.barred.toList, Path.normalize q = some path) ∨ _))

instance : DecidablePred (c.Selects includes excludes) := fun path =>
  inferInstanceAs (Decidable (¬ c.Excludes excludes path ∧
    ((∃ q ∈ c.picked.toList, Path.normalize q = some path) ∨ _)))

end

variable {c : Choice} {path : String} (includes excludes : List String)

@[simp] theorem filtersOn_normalized : c.normalized.filtersOn = c.filtersOn := rfl

theorem picked_iff :
    c.normalized.picked.contains path = true ↔ ∃ q ∈ c.picked, Path.normalize q = some path :=
  TextSet.contains_iff.trans TextSet.mem_normalized

variable [Glob.Limit]

theorem excluded_iff (h : Path.normalize path = some path) :
    (c.normalized.barred.contains path ||
      c.filtersOn && (Mask.ofPatterns includes excludes).rejectsCanonical path) = true ↔
      c.Excludes excludes path := by
  rw [Bool.or_eq_true, Bool.and_eq_true, Mask.rejectsCanonical_ofPatterns_iff includes excludes h,
    TextSet.contains_iff]
  exact or_congr_left TextSet.mem_normalized

theorem decide_eq_excluded_iff_excludes (h : Path.normalize path = some path) :
    c.normalized.decide (.ofPatterns includes excludes) path = .excluded ↔
      c.Excludes excludes path := by
  rw [decide_eq_excluded_iff, filtersOn_normalized, excluded_iff includes excludes h]

theorem decide_eq_selected_iff_selects (h : Path.normalize path = some path) :
    c.normalized.decide (.ofPatterns includes excludes) path = .selected ↔
      c.Selects includes excludes path := by
  rw [Selects, ← excluded_iff includes excludes h, Choice.decide, filtersOn_normalized]
  split
  · next hexcluded => exact iff_of_false (by simp) fun hselects => hselects.1 hexcluded
  · next hexcluded =>
    -- with the filters on the patterns to exclude have had their say
    have hmask (hon : c.filtersOn = true) :
        (Mask.ofPatterns includes excludes).acceptsCanonical path = true ↔
          (∀ g ∈ includes, Text.isBlankText g = true) ∨
            ∃ g ∈ includes, (Glob.compile g).test path = true := by
      rw [Mask.acceptsCanonical_ofPatterns_iff includes excludes h]
      refine and_iff_right ?_
      rw [← Bool.not_eq_true]
      exact fun hrejects => hexcluded (by simp [hon, hrejects])
    rw [and_iff_right hexcluded, ← picked_iff]
    cases hon : c.filtersOn with
    | false => simp
    | true => simp [← hmask hon, or_iff_not_imp_left]

end Choice

namespace Selection

/-- The selection lists, measures and counts the files of the tree that are selected and those that
are excluded, for the whole tree and below each of its directories. -/
structure Resolves (s : Selection) (t : Tree) (excluded selected : String → Prop)
    [DecidablePred excluded] [DecidablePred selected] : Prop where
  files_eq : s.files = t.filePaths.filter selected
  nodup_files : s.files.Nodup
  isSelected_iff : ∀ p, s.isSelected p = true ↔ p ∈ t.filePaths ∧ selected p
  size_eq : s.size =
    Number.capped (Number.total ((t.files.filter (selected ·.path)).map (·.attrs.size)))
  totalFiles_eq : s.totalFiles = t.filePaths.length
  excludedFiles_eq : s.excludedFiles = t.filePaths.countP excluded
  nodup_directories : (s.directories.map (·.1)).Nodup
  mem_directories : ∀ path counts, (path, counts) ∈ s.directories ↔
    path ∈ t.dirPaths ∧
      counts = .ofPaths excluded selected (t.filePaths.filter (Path.IsBelow path))
  selected_le_total : ∀ path counts, (path, counts) ∈ s.directories →
    counts.selected ≤ counts.total
  total_add_excluded : ∀ d ∈ t.allNodes, d.isDir = true →
    ∀ counts, (d.label.path, counts) ∈ s.directories →
      counts.total + counts.excluded = d.fileCount

section

variable {t : Tree} {rule : String → Decision} {excluded selected : String → Prop}
  [DecidablePred excluded] [DecidablePred selected]

theorem mem_directories_ofRule {above : String} (h : t.Shaped above) {path : String}
    {counts : Counts} : (path, counts) ∈ (ofRule t rule).directories ↔
      path ∈ t.dirPaths ∧ counts =
        .ofPaths (rule · = .excluded) (rule · = .selected)
          (t.filePaths.filter (Path.IsBelow path)) := by
  rw [directories_ofRule, Tree.mem_countsByPath, Tree.dirPaths, List.mem_map]
  constructor
  · rintro ⟨d, hd, hdir, heq⟩
    obtain ⟨rfl, rfl⟩ := Prod.mk.inj heq
    cases d with
    | file l => cases hdir
    | dir l children =>
      exact ⟨⟨l, Tree.mem_dirs.2 ⟨children, hd⟩, rfl⟩, h.counts_children rule hd hdir⟩
  · rintro ⟨⟨l, hl, rfl⟩, rfl⟩
    obtain ⟨children, hd⟩ := Tree.mem_dirs.1 hl
    exact ⟨_, hd, rfl, by rw [h.counts_children rule hd rfl]; rfl⟩

theorem ofRule_resolves {above : String} (h : t.Shaped above)
    (hexcluded : ∀ p ∈ t.filePaths, (rule p = .excluded ↔ excluded p))
    (hselected : ∀ p ∈ t.filePaths, (rule p = .selected ↔ selected p))
    (hapart : ∀ p, selected p → ¬ excluded p) : (ofRule t rule).Resolves t excluded selected := by
  have hfiles : (ofRule t rule).files = t.filePaths.filter selected := by
    rw [files_ofRule]
    apply List.filter_congr
    intro p hp
    rw [Bool.eq_iff_iff, beq_iff_eq, decide_eq_true_iff, hselected p hp]
  have hdirectories (path : String) (counts : Counts) :
      (path, counts) ∈ (ofRule t rule).directories ↔ path ∈ t.dirPaths ∧ counts =
        .ofPaths excluded selected (t.filePaths.filter (Path.IsBelow path)) := by
    have hcounts := Counts.ofPaths_congr
      (fun p (hp : p ∈ t.filePaths.filter (Path.IsBelow path)) =>
        hexcluded p (List.mem_of_mem_filter hp))
      (fun p hp => hselected p (List.mem_of_mem_filter hp))
    rw [mem_directories_ofRule h, hcounts]
  refine {
    files_eq := hfiles
    nodup_files := hfiles ▸ h.nodup_filePaths.filter _
    isSelected_iff := fun p => by
      rw [isSelected_ofRule, hfiles, List.mem_filter, decide_eq_true_iff]
    size_eq := ?_
    totalFiles_eq := by
      rw [totalFiles_ofRule, Tree.filePaths, List.length_map]
    excludedFiles_eq := ?_
    nodup_directories := ?_
    mem_directories := hdirectories
    selected_le_total := fun path counts hmem => ?_
    total_add_excluded := fun d hd hdir counts hmem => ?_ }
  · rw [size_ofRule, hfiles]
    congr 3
    apply List.filter_congr
    intro l hl
    have hpath : l.path ∈ t.filePaths := List.mem_map_of_mem hl
    simp [hpath]
  · rw [excludedFiles_ofRule, Tree.counts_eq_ofPaths, Counts.ofPaths_congr hexcluded hselected]
    rfl
  · rw [directories_ofRule, (t.map_fst_countsByPath rule).nodup_iff]
    exact h.nodup_dirPaths
  · obtain ⟨-, rfl⟩ := (hdirectories path counts).1 hmem
    exact Counts.selected_le_total_ofPaths hapart _
  · obtain ⟨-, rfl⟩ := (hdirectories _ counts).1 hmem
    rw [Counts.total_add_excluded_ofPaths, h.filter_isBelow_filePaths hd hdir]
    cases d with
    | file l => cases hdir
    | dir l children =>
      rw [Tree.filePaths, List.length_map]
      exact children.fileCount_eq_length.symm

end

theorem ofEntries_resolves [Glob.Limit] (es : List Entry) (includes excludes : List String)
    (choice : Choice) :
    (ofEntries es includes excludes choice).Resolves (.ofEntries es) (choice.Excludes excludes)
      (choice.Selects includes excludes) := by
  apply ofRule_resolves (Tree.shaped_ofEntries es)
  · intro p hp
    have hcanonical := Tree.normalize_of_mem_filePaths hp
    exact Choice.decide_eq_excluded_iff_excludes includes excludes hcanonical
  · intro p hp
    have hcanonical := Tree.normalize_of_mem_filePaths hp
    exact Choice.decide_eq_selected_iff_selects includes excludes hcanonical
  · exact fun p hp => hp.1

end Selection

end TreeSelection
