import TreeSelection.Proofs.Glob.Subtree
import TreeSelection.Proofs.Selection.Monotone

namespace TreeSelection

theorem Choice.excludes_below [Glob.Limit] {c : Choice} (hon : c.filtersOn = true)
    {excludes : List String}
    {g : String} (hg : g ∈ excludes) (hstars : Glob.EndsInStars g) {d p : String}
    (hd : Path.normalize d = some d) (htest : (Glob.compile g).test d = true)
    (hp : Path.normalize p = some p) (hbelow : Path.IsBelow d p) : c.Excludes excludes p := by
  have hmatch : (Glob.compile g).test p = true := Glob.test_of_isBelow hstars hd htest hp hbelow
  refine .inr ⟨hon, g, hg, ?_, hmatch⟩
  by_contra hblank
  rw [Glob.test_compile_of_isBlankText (by simpa using hblank)] at hmatch
  cases hmatch

namespace Selection

theorem Resolves.counts_eq_of_excluded {s : Selection} {t : Tree}
    {excluded selected : String → Prop} [DecidablePred excluded] [DecidablePred selected]
    (h : s.Resolves t excluded selected) {d : Node} (hd : d ∈ t.allNodes) (hdir : d.isDir = true)
    (hall : ∀ p ∈ t.filePaths, Path.IsBelow d.label.path p → excluded p) :
    s.counts d.label.path = ⟨0, 0, d.fileCount⟩ := by
  have hlisted : d.label.path ∈ t.dirPaths := Tree.mem_dirPaths_of_isDir hd hdir
  have hcounts := h.counts_eq hlisted
  have hline : (d.label.path, s.counts d.label.path) ∈ s.directories :=
    (h.mem_directories _ _).2 ⟨hlisted, hcounts⟩
  have htotal : (s.counts d.label.path).total = 0 := by
    rw [hcounts, Counts.ofPaths, List.countP_eq_zero]
    intro p hp
    obtain ⟨hp, hbelow⟩ := List.mem_filter.1 hp
    simpa using hall p hp (of_decide_eq_true hbelow)
  have hselected := h.selected_le_total _ _ hline
  have hsum := h.total_add_excluded d hd hdir _ hline
  generalize s.counts d.label.path = counts at htotal hselected hsum ⊢
  obtain ⟨total, selected, excluded⟩ := counts
  simp only at htotal hselected hsum
  rw [Counts.mk.injEq]
  omega

/-- A pattern to exclude that ends in stars and matches a directory takes all that is in it out,
whatever is picked and whatever is included. -/
theorem ofEntries_excludes_below [Glob.Limit] (es : List Entry) (includes excludes : List String)
    (choice : Choice) (hon : choice.filtersOn = true) {g : String} (hg : g ∈ excludes)
    (hstars : Glob.EndsInStars g) {d : Node} (hd : d ∈ (Tree.ofEntries es).allNodes)
    (hdir : d.isDir = true) (htest : (Glob.compile g).test d.label.path = true) :
    let s := ofEntries es includes excludes choice
    (∀ p ∈ s.files, ¬ Path.IsBelow d.label.path p) ∧
      ∀ m ∈ d :: d.children.allNodes, m.isDir = true →
        s.counts m.label.path = ⟨0, 0, m.fileCount⟩ ∧ s.state m.label.path = .unchecked ∧
          (s.counts m.label.path).isDisabled = true := by
  intro s
  have hshaped := Tree.shaped_ofEntries es
  have hcanonical : ∀ p ∈ (Tree.ofEntries es).filePaths, Path.normalize p = some p :=
    fun p hp => Tree.normalize_of_mem_filePaths hp
  have h : s.Resolves _ _ _ := ofTree_resolves hshaped hcanonical includes excludes choice
  have hexcluded (p : String) (hp : p ∈ (Tree.ofEntries es).filePaths)
      (hbelow : Path.IsBelow d.label.path p) : choice.Excludes excludes p :=
    Choice.excludes_below hon hg hstars (hshaped.normalize_path hd) htest (hcanonical p hp) hbelow
  constructor
  · intro p hp hbelow
    obtain ⟨hfile, hselects⟩ := h.mem_files_iff.1 hp
    exact hselects.1 (hexcluded p hfile hbelow)
  · intro m hm hmdir
    have hcounts : s.counts m.label.path = ⟨0, 0, m.fileCount⟩ := by
      rcases List.mem_cons.1 hm with rfl | hm
      · exact h.counts_eq_of_excluded hd hmdir hexcluded
      · have hmem := Tree.mem_allNodes_of_mem_children hd hm
        have hbelow := hshaped.isBelow hd hm
        exact h.counts_eq_of_excluded hmem hmdir fun p hp hp' =>
          hexcluded p hp (Path.IsBelow.trans hbelow hp')
    refine ⟨hcounts, ?_, ?_⟩
    · rw [state, hcounts, Counts.state_eq_unchecked_iff]
      exact .inl rfl
    · rw [hcounts]
      rfl

theorem ofEntries_excludes_below_stars :
    let es : List Entry :=
      [⟨"src/gen/a.rs", .file, {}⟩, ⟨"src/gen/deep/b.rs", .file, {}⟩, ⟨"src/c.rs", .file, {}⟩]
    let s := ofEntries es ["**"] [" \\src/g?n**"] ⟨.ofList ["src/gen/a.rs"], .empty, true⟩
    ∃ d ∈ (Tree.ofEntries es).allNodes, d.label.path = "src/gen" ∧ d.isDir = true ∧
      (∀ p ∈ s.files, ¬ Path.IsBelow d.label.path p) ∧
        ∀ m ∈ d :: d.children.allNodes, m.isDir = true →
          s.counts m.label.path = ⟨0, 0, m.fileCount⟩ ∧ s.state m.label.path = .unchecked ∧
            (s.counts m.label.path).isDisabled = true := by
  intro es s
  have hd : ∃ d ∈ (Tree.ofEntries es).allNodes, d.label.path = "src/gen" ∧ d.isDir = true := by
    decide +kernel
  obtain ⟨d, hd, hpath, hdir⟩ := hd
  have hstars : Glob.EndsInStars " \\src/g?n**" := by decide +kernel
  have htest : (Glob.compile " \\src/g?n**").test d.label.path = true := by
    rw [hpath]
    decide +kernel
  exact ⟨d, hd, hpath, hdir, ofEntries_excludes_below es ["**"] [" \\src/g?n**"]
    ⟨.ofList ["src/gen/a.rs"], .empty, true⟩ rfl List.mem_cons_self hstars hd hdir htest⟩

end Selection

end TreeSelection
