import TreeSelection.Proofs.Explorer.Checkboxes

namespace TreeSelection

theorem Tree.find_of_normalize (t : Tree) {p f : String} (h : Path.normalize p = some f) :
    t.find p = t.find f := by
  rw [find, find, Path.segments?_of_normalize h]

namespace TextSet

theorem toggleFile_of_normalize (s : TextSet) {p f : String} (h : Path.normalize p = some f) :
    s.toggleFile p = s.toggleFile f := by
  simp only [toggleFile, h, Path.normalize_of_normalize h]

end TextSet

namespace Explorer

variable {e : Explorer} {p f : String}

section

variable (e) (h : Path.normalize p = some f)

include h

theorem isFile_of_normalize : e.isFile p = e.isFile f := by
  rw [isFile, isFile, e.tree.find_of_normalize h]

theorem toggleFile_of_normalize : e.toggleFile p = e.toggleFile f := by
  rw [toggleFile, toggleFile, e.isFile_of_normalize h, e.picked.toggleFile_of_normalize h]

theorem toggleDirectory_of_normalize : e.toggleDirectory p = e.toggleDirectory f := by
  rw [toggleDirectory, toggleDirectory, e.tree.find_of_normalize h]

theorem flagSecrets_of_normalize (before after : List String) :
    e.flagSecrets (before ++ p :: after) = e.flagSecrets (before ++ f :: after) := by
  simp only [flagSecrets, List.filterMap_append, List.filterMap_cons, h,
    Path.normalize_of_normalize h]

end

section

variable [Glob.Limit]

def Rejects (e : Explorer) (path : String) : Prop :=
  e.filtersOn = true ∧
    ∃ g ∈ e.excludes, Text.isBlankText g = false ∧ (Glob.compile g).test path = true

theorem Sound.rejects_iff (h : e.Sound) (hp : Path.normalize p = some f) :
    (e.filtersOn && e.mask.rejects p) = true ↔ e.Rejects f := by
  have hf := Path.normalize_of_normalize hp
  rw [Bool.and_eq_true, Mask.rejects, hp, Option.any_some, h.mask,
    Mask.rejectsCanonical_ofPatterns_iff _ _ hf, Rejects]

theorem Sound.isExcluded_iff (h : e.Sound) (hanchored : e.Anchored)
    (hp : Path.normalize p = some f) :
    e.isExcluded p = true ↔ (p = f ∧ f ∈ e.barred) ∨ e.Rejects f := by
  have hbarred : e.barred.contains p = true ↔ p = f ∧ f ∈ e.barred := by
    rw [TextSet.contains_iff]
    constructor
    · intro hmem
      have hcanonical := h.normalize_of_mem_filePaths (hanchored.barred p hmem)
      obtain rfl := Option.some.inj (hcanonical.symm.trans hp)
      exact ⟨rfl, hmem⟩
    · rintro ⟨rfl, hmem⟩
      exact hmem
  rw [isExcluded, Bool.or_eq_true, hbarred, h.rejects_iff hp]

/-- What is answered for a text that denotes the file. The file is excluded when it is barred or a
pattern rejects it; the session says so of the text if a pattern does, and otherwise of the path
alone. To edits the text is as good as the path. -/
structure AnswersFor (e : Explorer) (f p : String) : Prop where
  excluded_iff : e.choice.normalized.decide e.mask f = .excluded ↔ f ∈ e.barred ∨ e.Rejects f
  isExcluded_iff : e.isExcluded p = true ↔
    e.choice.normalized.decide e.mask f = .excluded ∧ (p = f ∨ e.Rejects f)
  toggleFile_eq : e.toggleFile p = e.toggleFile f
  toggleDirectory_eq : e.toggleDirectory p = e.toggleDirectory f
  flagSecrets_eq : ∀ before after,
    e.flagSecrets (before ++ p :: after) = e.flagSecrets (before ++ f :: after)

theorem answersFor_run (config : Config) (edits : List Edit)
    (hf : f ∈ ((ofConfig config).run edits).tree.filePaths) (hp : Path.normalize p = some f) :
    ((ofConfig config).run edits).AnswersFor f p := by
  have h := coherent_run config edits
  have hanchored := anchored_run config edits
  have hexcluded := h.decide_eq_excluded_iff_isExcluded hanchored hf
  rw [h.isExcluded_iff hanchored (h.normalize_of_mem_filePaths hf), and_iff_right rfl] at hexcluded
  refine ⟨hexcluded, ?_, toggleFile_of_normalize _ hp, toggleDirectory_of_normalize _ hp,
    flagSecrets_of_normalize _ hp⟩
  rw [h.isExcluded_iff hanchored hp, hexcluded]
  tauto

end

theorem answersFor_run_rejected :
    let repository : Repository := ⟨"o", "r", none⟩
    let es : List Entry := [⟨"a/b.md", .file, {}⟩, ⟨"a/logo.png", .file, {}⟩]
    let e := (ofConfig {}).run [.load repository es, .setMasks [] [" /a\\*.md"]]
    "a/b.md" ∈ e.tree.filePaths ∧ Path.normalize "./a\\b.md" = some "a/b.md" ∧
      e.isExcluded "./a\\b.md" = true := by
  intro repository es e
  have hf : "a/b.md" ∈ e.tree.filePaths := by decide +kernel
  have hp : Path.normalize "./a\\b.md" = some "a/b.md" := by decide +kernel
  have hrejects : e.Rejects "a/b.md" :=
    ⟨by decide +kernel, " /a\\*.md", by decide +kernel, by decide +kernel, by decide +kernel⟩
  have hanswers : e.AnswersFor "a/b.md" "./a\\b.md" := answersFor_run {} _ hf hp
  exact ⟨hf, hp, hanswers.isExcluded_iff.2 ⟨hanswers.excluded_iff.2 (.inr hrejects), .inr hrejects⟩⟩

/-- A binary file is barred, and yet nothing is said against another spelling of its path. -/
theorem not_isExcluded_of_barred_respelled :
    let repository : Repository := ⟨"o", "r", none⟩
    let e := (ofConfig {}).run [.load repository [⟨"a/logo.png", .file, {}⟩]]
    "a/logo.png" ∈ e.tree.filePaths ∧ Path.normalize "./a/logo.png" = some "a/logo.png" ∧
      "a/logo.png" ∈ e.barred ∧ e.choice.normalized.decide e.mask "a/logo.png" = .excluded ∧
      e.isExcluded "./a/logo.png" = false := by
  decide +kernel

end Explorer

end TreeSelection
