import TreeSelection.Proofs.Selection.Resolution

namespace TreeSelection

namespace Counts

variable {c : Counts}

theorem state_eq_checked_iff : c.state = .checked ↔ 0 < c.total ∧ c.selected = c.total := by
  unfold state
  split
  · next h => simpa using by omega
  · split
    · next h hall => simpa using by omega
    · next hall => simp [hall]

theorem state_eq_unchecked_iff : c.state = .unchecked ↔ c.total = 0 ∨ c.selected = 0 := by
  unfold state
  split
  · next h => simp [h]
  · next h => split <;> simp [h]

theorem state_eq_indeterminate_iff :
    c.state = .indeterminate ↔ 0 < c.total ∧ 0 < c.selected ∧ c.selected ≠ c.total := by
  unfold state
  split
  · next h => simpa using by omega
  · split
    · next h hall => simp [hall]
    · next h hall => simpa using by omega

section

variable {excluded selected : String → Prop} [DecidablePred excluded] [DecidablePred selected]
  {paths : List String}

theorem total_pos_ofPaths_iff :
    0 < (ofPaths excluded selected paths).total ↔ ∃ p ∈ paths, ¬ excluded p := by
  simp [ofPaths, List.countP_pos_iff]

theorem selected_pos_ofPaths_iff (h : ∀ p, selected p → ¬ excluded p) :
    0 < (ofPaths excluded selected paths).selected ↔ ∃ p ∈ paths, ¬ excluded p ∧ selected p := by
  have hpos : 0 < (ofPaths excluded selected paths).selected ↔ ∃ p ∈ paths, selected p := by
    simp [ofPaths, List.countP_pos_iff]
  rw [hpos]
  exact exists_congr fun p => and_congr_right fun _ => (and_iff_right_of_imp (h p)).symm

theorem isDisabled_ofPaths_iff :
    (ofPaths excluded selected paths).isDisabled = true ↔ ∀ p ∈ paths, excluded p := by
  simp [isDisabled, ofPaths, List.countP_eq_zero]

theorem selected_eq_total_ofPaths_iff (h : ∀ p, selected p → ¬ excluded p) :
    (ofPaths excluded selected paths).selected = (ofPaths excluded selected paths).total ↔
      ∀ p ∈ paths, ¬ excluded p → selected p := by
  have hsub : (paths.filter selected).Sublist (paths.filter (¬ excluded ·)) :=
    List.monotone_filter_right paths fun p hp => by simpa using h p (of_decide_eq_true hp)
  simp only [ofPaths, List.countP_eq_length_filter]
  constructor
  · intro hlength p hp hfree
    have hmem : p ∈ paths.filter (¬ excluded ·) := List.mem_filter.2 ⟨hp, by simpa using hfree⟩
    rw [← hsub.eq_of_length hlength] at hmem
    exact of_decide_eq_true (List.mem_filter.1 hmem).2
  · intro hall
    congr 1
    apply List.filter_congr
    intro p hp
    rw [Bool.eq_iff_iff, decide_eq_true_iff, decide_eq_true_iff]
    exact ⟨h p, hall p hp⟩

theorem state_ofPaths_eq_checked_iff (h : ∀ p, selected p → ¬ excluded p) :
    (ofPaths excluded selected paths).state = .checked ↔
      (∃ p ∈ paths, ¬ excluded p) ∧ ∀ p ∈ paths, ¬ excluded p → selected p := by
  rw [state_eq_checked_iff, total_pos_ofPaths_iff, selected_eq_total_ofPaths_iff h]

theorem state_ofPaths_eq_indeterminate_iff (h : ∀ p, selected p → ¬ excluded p) :
    (ofPaths excluded selected paths).state = .indeterminate ↔
      (∃ p ∈ paths, ¬ excluded p ∧ selected p) ∧ ∃ p ∈ paths, ¬ excluded p ∧ ¬ selected p := by
  rw [state_eq_indeterminate_iff, total_pos_ofPaths_iff, selected_pos_ofPaths_iff h, Ne,
    selected_eq_total_ofPaths_iff h]
  constructor
  · rintro ⟨-, hsome, hnot⟩
    exact ⟨hsome, by simpa using hnot⟩
  · rintro ⟨hsome, p, hp, hfree, hout⟩
    exact ⟨⟨p, hp, hfree⟩, hsome, fun hall => hout (hall p hp hfree)⟩

theorem state_ofPaths_eq_unchecked_iff (h : ∀ p, selected p → ¬ excluded p) :
    (ofPaths excluded selected paths).state = .unchecked ↔
      ∀ p ∈ paths, ¬ excluded p → ¬ selected p := by
  have hle := selected_le_total_ofPaths h paths
  have hnone : (ofPaths excluded selected paths).state = .unchecked ↔
      ¬ 0 < (ofPaths excluded selected paths).selected := by
    rw [state_eq_unchecked_iff]
    omega
  rw [hnone, selected_pos_ofPaths_iff h]
  simp

end

end Counts

namespace Selection

theorem lookup_of_mem_directories {directories : List (String × Counts)}
    (h : (directories.map (·.1)).Nodup) {path : String} {counts : Counts}
    (hmem : (path, counts) ∈ directories) : directories.lookup path = some counts := by
  obtain ⟨before, after, rfl⟩ := List.append_of_mem hmem
  refine List.lookup_eq_some_iff.2 ⟨before, after, rfl, fun line hline => ?_⟩
  have hne : line.1 ≠ path := by
    rw [List.map_append, List.nodup_append] at h
    exact h.2.2 line.1 (List.mem_map_of_mem hline) path (by simp)
  simpa using hne.symm

theorem Resolves.counts_eq {s : Selection} {t : Tree} {excluded selected : String → Prop}
    [DecidablePred excluded] [DecidablePred selected] (h : s.Resolves t excluded selected)
    {path : String} (hpath : path ∈ t.dirPaths) :
    s.counts path = .ofPaths excluded selected (t.filePaths.filter (Path.IsBelow path)) := by
  have hmem := (h.mem_directories path _).2 ⟨hpath, rfl⟩
  rw [counts, lookup_of_mem_directories h.nodup_directories hmem, Option.getD_some]

end Selection

end TreeSelection
