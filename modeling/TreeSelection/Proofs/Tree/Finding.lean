import TreeSelection.Proofs.Tree.Declared
import TreeSelection.Proofs.Tree.Lookup

namespace TreeSelection.Tree

theorem mem_paths_iff_listed {t : Tree} {p : String} :
    p ∈ t.paths ↔ p ∈ t.filePaths ∨ p ∈ t.dirPaths := by
  simp only [paths, filePaths, dirPaths, files_eq_filter_allNodes, dirs_eq_filter_allNodes,
    List.map_map, List.mem_map, List.mem_filter, Function.comp_apply]
  constructor
  · rintro ⟨n, hn, rfl⟩
    cases hdir : n.isDir with
    | false => exact .inl ⟨n, ⟨hn, by simp [hdir]⟩, rfl⟩
    | true => exact .inr ⟨n, ⟨hn, hdir⟩, rfl⟩
  · rintro (⟨n, ⟨hn, -⟩, rfl⟩ | ⟨n, ⟨hn, -⟩, rfl⟩) <;> exact ⟨n, hn, rfl⟩

/-- The texts that find something are the spellings of the paths of the nodes, and each finds the
one node with its path. -/
structure Locates (t : Tree) : Prop where
  nodup_paths : t.paths.Nodup
  isSome_find_iff : ∀ s, (t.find s).isSome = true ↔
    ∃ p, Path.normalize s = some p ∧ ∃ n ∈ t.allNodes, n.label.path = p
  find_eq : ∀ s p, Path.normalize s = some p → ∀ n ∈ t.allNodes, n.label.path = p →
    t.find s = some n
  isSome_find_iff_listed : ∀ s, (t.find s).isSome = true ↔
    ∃ p, Path.normalize s = some p ∧ (p ∈ t.filePaths ∨ p ∈ t.dirPaths)

theorem Shaped.locates {t : Tree} (h : Shaped "" t) : t.Locates := by
  have hfound (s : String) : (t.find s).isSome = true ↔
      ∃ p, Path.normalize s = some p ∧ ∃ n ∈ t.allNodes, n.label.path = p := by
    rw [Option.isSome_iff_exists]
    simp only [h.find_eq_some_iff]
    constructor
    · rintro ⟨n, hn, hs⟩
      exact ⟨_, hs, n, hn, rfl⟩
    · rintro ⟨_, hs, n, hn, rfl⟩
      exact ⟨n, hn, hs⟩
  refine ⟨h.nodup_paths, hfound, ?_, fun s => (hfound s).trans ?_⟩
  · rintro s _ hs n hn rfl
    exact h.find_eq_some_iff.2 ⟨hn, hs⟩
  · simp only [← mem_paths_iff_listed, paths, List.mem_map]

theorem locates_ofEntries (es : List Entry) : (ofEntries es).Locates :=
  (shaped_ofEntries es).locates

end TreeSelection.Tree
