import TreeSelection.Proofs.Explorer.Checkboxes
import TreeSelection.Proofs.Selection.Monotone

namespace TreeSelection

namespace TextSet

variable {s : TextSet} {files : List String} {counts : Counts} {f : String}

theorem mem_toggleFiles_of_checked (h : counts.state = .checked) :
    f ∈ s.toggleFiles files counts ↔ f ∈ s ∧ f ∉ files := by
  rw [toggleFiles, if_pos h, mem_filter]
  simp

theorem mem_toggleFiles_of_not_checked (h : counts.state ≠ .checked) :
    f ∈ s.toggleFiles files counts ↔ f ∈ s ∨ f ∈ files := by
  rw [toggleFiles, if_neg h, mem_union, mem_ofList, or_comm]

theorem mem_toggleFiles_of_not_mem (h : f ∉ files) : f ∈ s.toggleFiles files counts ↔ f ∈ s := by
  by_cases hstate : counts.state = .checked
  · rw [mem_toggleFiles_of_checked hstate, and_iff_left h]
  · rw [mem_toggleFiles_of_not_checked hstate, or_iff_left h]

end TextSet

theorem Choice.decide_eq_selected_iff_not_excluded {c : Choice} {mask : Mask} {path : String} :
    c.decide mask path = .selected ↔ c.decide mask path ≠ .excluded ∧
      (path ∈ c.picked ∨ c.filtersOn = false ∨ mask.acceptsCanonical path = true) := by
  unfold Choice.decide
  split
  · simp
  · split
    · next h => simpa [or_assoc] using h
    · next h => simpa [or_assoc] using h

namespace Explorer

def filesBelow (e : Explorer) (directory : String) : List String :=
  e.tree.filePaths.filter (Path.IsBelow directory)

variable {e e' : Explorer} {d f : String}

theorem mem_filesBelow : f ∈ e.filesBelow d ↔ f ∈ e.tree.filePaths ∧ Path.IsBelow d f := by
  simp [filesBelow]

section

variable [Glob.Limit]

theorem Coherent.mem_files_iff (h : e.Coherent) (hanchored : e.Anchored) :
    f ∈ e.selection.files ↔ f ∈ e.tree.filePaths ∧ e.isExcluded f = false ∧
      (f ∈ e.picked ∨ e.filtersOn = false ∨ e.mask.accepts f = true) := by
  have hpicked : e.choice.normalized.picked = e.picked :=
    TextSet.normalized_eq_self fun q hq => h.normalize_of_mem_filePaths (hanchored.picked q hq)
  have hfile (hf : f ∈ e.tree.filePaths) : f ∈ e.selection.files ↔ e.isExcluded f = false ∧
      (f ∈ e.picked ∨ e.filtersOn = false ∨ e.mask.accepts f = true) := by
    rw [← h.decide_eq_selected_iff_mem_files hf, Choice.decide_eq_selected_iff_not_excluded, Ne,
      h.decide_eq_excluded_iff_isExcluded hanchored hf, hpicked, Bool.not_eq_true,
      Mask.accepts_of_normalize _ (h.normalize_of_mem_filePaths hf)]
    rfl
  refine ⟨fun hf => ?_, fun hf => (hfile hf.1).2 hf.2⟩
  have hlisted := h.mem_filePaths_of_mem_files hf
  exact ⟨hlisted, (hfile hlisted).1 hf⟩

theorem Coherent.selection_eq (h : e.Coherent) (hanchored : e.Anchored) (h' : e'.Coherent)
    (hanchored' : e'.Anchored) (htree : e'.tree = e.tree)
    (hexcluded : ∀ f, e'.isExcluded f = e.isExcluded f)
    (hfiles : ∀ f, f ∈ e'.selection.files ↔ f ∈ e.selection.files) :
    e'.selection = e.selection := by
  rw [h.selection, h'.selection, htree]
  refine Selection.ofRule_congr fun p hp => ?_
  have hp' : p ∈ e'.tree.filePaths := htree ▸ hp
  have hout : e'.choice.normalized.decide e'.mask p = .excluded ↔
      e.choice.normalized.decide e.mask p = .excluded := by
    rw [h.decide_eq_excluded_iff_isExcluded hanchored hp,
      h'.decide_eq_excluded_iff_isExcluded hanchored' hp', hexcluded]
  have hin : e'.choice.normalized.decide e'.mask p = .selected ↔
      e.choice.normalized.decide e.mask p = .selected := by
    rw [h.decide_eq_selected_iff_mem_files hp, h'.decide_eq_selected_iff_mem_files hp', hfiles]
  cases hdecision : e.choice.normalized.decide e.mask p with
  | selected => exact hin.2 hdecision
  | excluded => exact hout.2 hdecision
  | unselected =>
    cases hdecision' : e'.choice.normalized.decide e'.mask p with
    | unselected => rfl
    | selected => simp [hdecision, hdecision'] at hin
    | excluded => simp [hdecision, hdecision'] at hout

theorem Coherent.state_eq_checked_iff (h : e.Coherent) (hanchored : e.Anchored)
    (hd : d ∈ e.tree.dirPaths) : e.selection.state d = .checked ↔
      (∃ f, e.Selectable d f) ∧ ∀ f, e.Selectable d f → f ∈ e.selection.files := by
  rw [Selection.state, (h.resolves hanchored).counts_eq hd, Counts.state_ofPaths_eq_checked_iff
    fun p hp => h.not_isExcluded_of_mem_files hanchored hp]
  simp only [selectable_iff, and_imp]

theorem Coherent.isDisabled_iff (h : e.Coherent) (hanchored : e.Anchored)
    (hd : d ∈ e.tree.dirPaths) :
    (e.selection.counts d).isDisabled = true ↔ ∀ f ∈ e.filesBelow d, e.isExcluded f = true := by
  rw [(h.resolves hanchored).counts_eq hd, Counts.isDisabled_ofPaths_iff]
  rfl

structure Unpicks (e e' : Explorer) (directory : String) : Prop where
  mem_picked_iff : ∀ f, f ∈ e'.picked ↔ f ∈ e.picked ∧ f ∉ e.filesBelow directory
  mem_files_iff : ∀ f ∈ e.filesBelow directory, (f ∈ e'.selection.files ↔
    e.isExcluded f = false ∧ (e.filtersOn = false ∨ e.mask.accepts f = true))

structure Picks (e e' : Explorer) (directory : String) : Prop where
  mem_picked_iff : ∀ f, f ∈ e'.picked ↔ f ∈ e.picked ∨ f ∈ e.filesBelow directory
  mem_files : ∀ f ∈ e.filesBelow directory, e.isExcluded f = false → f ∈ e'.selection.files
  state_eq : ∀ d ∈ e.tree.dirPaths, d = directory ∨ Path.IsBelow directory d →
    (∃ f, e.Selectable d f) → e'.selection.state d = .checked

/-- Nothing but what is picked and selected changes, and what is selected only below the
directory, as far as it can be. -/
structure KeepsOutside (e e' : Explorer) (directory : String) : Prop where
  frame : e' = { e with picked := e'.picked, selection := e'.selection }
  mem_files_iff : ∀ f ∉ e.filesBelow directory, (f ∈ e'.selection.files ↔ f ∈ e.selection.files)
  total_eq : ∀ d, (e'.selection.counts d).total = (e.selection.counts d).total
  excluded_eq : ∀ d, (e'.selection.counts d).excluded = (e.selection.counts d).excluded
  selection_eq : (e.selection.counts directory).isDisabled = true → e'.selection = e.selection

def pick (e : Explorer) (picked : TextSet) : Explorer := { e with picked }.resolve

section

variable {picked : TextSet}

theorem Coherent.mem_files_pick_iff (h : e.Coherent) (hanchored : e.Anchored)
    (hpicked : ∀ p ∈ picked, p ∈ e.tree.filePaths) :
    f ∈ (e.pick picked).selection.files ↔ f ∈ e.tree.filePaths ∧ e.isExcluded f = false ∧
      (f ∈ picked ∨ e.filtersOn = false ∨ e.mask.accepts f = true) :=
  (h.pick picked).mem_files_iff (hanchored.pick hpicked)

theorem Coherent.keepsOutside_pick (h : e.Coherent) (hanchored : e.Anchored)
    (hd : d ∈ e.tree.dirPaths) (hpicked : ∀ p ∈ picked, p ∈ e.tree.filePaths)
    (hsame : ∀ f ∉ e.filesBelow d, (f ∈ picked ↔ f ∈ e.picked)) :
    e.KeepsOutside (e.pick picked) d := by
  have h' : (e.pick picked).Coherent := h.pick picked
  have hanchored' : (e.pick picked).Anchored := hanchored.pick hpicked
  have hresolves := h.resolves hanchored
  have hresolves' := h'.resolves hanchored'
  have hfiles (f : String) (hf : f ∉ e.filesBelow d) :
      f ∈ (e.pick picked).selection.files ↔ f ∈ e.selection.files := by
    rw [h.mem_files_pick_iff hanchored hpicked, h.mem_files_iff hanchored, hsame f hf]
  refine ⟨rfl, hfiles, hresolves.total_counts_eq hresolves' fun _ => .rfl,
    hresolves.excluded_counts_eq hresolves' fun _ => .rfl, fun hdisabled => ?_⟩
  refine h.selection_eq hanchored h' hanchored' rfl (fun _ => rfl) fun f => ?_
  -- what is picked below the directory is excluded, before and after
  by_cases hf : f ∈ e.filesBelow d
  · have hexcluded := (h.isDisabled_iff hanchored hd).1 hdisabled f hf
    exact iff_of_false (fun hin => h'.not_isExcluded_of_mem_files hanchored' hin hexcluded)
      fun hin => h.not_isExcluded_of_mem_files hanchored hin hexcluded
  · exact hfiles f hf

theorem Coherent.unpicks_pick (h : e.Coherent) (hanchored : e.Anchored)
    (hpicked : ∀ f, f ∈ picked ↔ f ∈ e.picked ∧ f ∉ e.filesBelow d) :
    e.Unpicks (e.pick picked) d := by
  refine ⟨hpicked, fun f hf => ?_⟩
  have hout : f ∉ picked := fun hin => ((hpicked f).1 hin).2 hf
  rw [h.mem_files_pick_iff hanchored fun p hp => hanchored.picked p ((hpicked p).1 hp).1,
    and_iff_right (mem_filesBelow.1 hf).1, or_iff_right hout]

theorem Coherent.picks_pick (h : e.Coherent) (hanchored : e.Anchored)
    (hpicked : ∀ f, f ∈ picked ↔ f ∈ e.picked ∨ f ∈ e.filesBelow d) :
    e.Picks (e.pick picked) d := by
  have htree (p : String) (hp : p ∈ picked) : p ∈ e.tree.filePaths :=
    ((hpicked p).1 hp).elim (hanchored.picked p) fun hbelow => (mem_filesBelow.1 hbelow).1
  have hfiles (f : String) (hf : f ∈ e.filesBelow d) (hfree : e.isExcluded f = false) :
      f ∈ (e.pick picked).selection.files :=
    (h.mem_files_pick_iff hanchored htree).2
      ⟨(mem_filesBelow.1 hf).1, hfree, .inl ((hpicked f).2 (.inr hf))⟩
  have hbelow {d' : String} (hd' : d' = d ∨ Path.IsBelow d d') {f : String}
      (hf : e.Selectable d' f) : Path.IsBelow d f := by
    rcases hd' with rfl | hd'
    · exact hf.2.1
    · exact hd'.trans hf.2.1
  refine ⟨hpicked, hfiles, fun d' hd' hdown hsome => ?_⟩
  refine ((h.pick picked).state_eq_checked_iff (hanchored.pick htree) hd').2
    ⟨hsome, fun f hf => ?_⟩
  exact hfiles f (mem_filesBelow.2 ⟨hf.1, hbelow hdown hf⟩) hf.2.2

end

theorem Sound.toggleDirectory_of_not_mem (h : e.Sound) {path : String}
    (hpath : ∀ d ∈ e.tree.dirPaths, Path.normalize path ≠ some d) :
    e.toggleDirectory path = (false, e) := by
  have hnone (l : Label) (children : Tree) : e.tree.find path ≠ some (.dir l children) := by
    intro hfind
    obtain ⟨hd, hl⟩ := h.shaped.find_eq_some_iff.1 hfind
    exact hpath l.path (List.mem_map_of_mem (Tree.mem_dirs.2 ⟨children, hd⟩)) hl
  unfold Explorer.toggleDirectory
  split
  · next l children hfind => exact absurd hfind (hnone l children)
  · rfl

theorem Sound.toggleDirectory_of_mem (h : e.Sound) (hd : d ∈ e.tree.dirPaths) {path : String}
    (hpath : Path.normalize path = some d) : e.toggleDirectory path =
      (true, e.pick (e.picked.toggleFiles (e.filesBelow d) (e.selection.counts d))) := by
  obtain ⟨l, hl, rfl⟩ := List.mem_map.1 hd
  obtain ⟨children, hnode⟩ := Tree.mem_dirs.1 hl
  have hbelow : _ = children.filePaths := h.shaped.filter_isBelow_filePaths hnode rfl
  have hfiles : e.filesBelow l.path = children.filePaths := hbelow
  rw [Explorer.toggleDirectory, h.shaped.find_eq_some_iff.2 ⟨hnode, hpath⟩, hfiles]
  rfl

/-- Turning over what is no directory of the tree does nothing. Turning over a directory unpicks the
files below it when all of them that can be selected are, and picks them otherwise, and it does not
touch what is selected elsewhere. -/
theorem toggleDirectory_run (config : Config) (edits : List Edit) (path : String) :
    let e := (ofConfig config).run edits
    let e' := (e.toggleDirectory path).2
    ((∀ d ∈ e.tree.dirPaths, Path.normalize path ≠ some d) →
      e.toggleDirectory path = (false, e)) ∧
    ∀ d ∈ e.tree.dirPaths, Path.normalize path = some d →
      (e.toggleDirectory path).1 = true ∧
        (e.selection.state d = .checked → e.Unpicks e' d) ∧
        (e.selection.state d ≠ .checked → e.Picks e' d) ∧
        e.KeepsOutside e' d := by
  intro e e'
  have h : e.Coherent := coherent_run config edits
  have hanchored : e.Anchored := anchored_run config edits
  refine ⟨h.toggleDirectory_of_not_mem, fun d hd hpath => ?_⟩
  have htoggle := h.toggleDirectory_of_mem hd hpath
  have he' : e' = _ := congrArg Prod.snd htoggle
  have htree (p : String) (hp : p ∈ e.picked.toggleFiles (e.filesBelow d) (e.selection.counts d)) :
      p ∈ e.tree.filePaths :=
    (TextSet.mem_of_mem_toggleFiles hp).elim (fun hbelow => (mem_filesBelow.1 hbelow).1)
      (hanchored.picked p)
  rw [he']
  refine ⟨congrArg Prod.fst htoggle, fun hchecked => ?_, fun hunchecked => ?_, ?_⟩
  · exact h.unpicks_pick hanchored fun f => TextSet.mem_toggleFiles_of_checked hchecked
  · exact h.picks_pick hanchored fun f => TextSet.mem_toggleFiles_of_not_checked hunchecked
  · exact h.keepsOutside_pick hanchored hd htree fun f hf => TextSet.mem_toggleFiles_of_not_mem hf

end

theorem toggleDirectory_run_partly_selected :
    let repository : Repository := ⟨"o", "r", none⟩
    let es : List Entry := [⟨"a/b.md", .file, {}⟩, ⟨"a/k/key.md", .file, {}⟩,
      ⟨"a/k/z.md", .file, {}⟩, ⟨"c.md", .file, {}⟩, ⟨"s/key.md", .file, {}⟩]
    let edits : List Edit := [.setMasks ["a/b*"] [], .load repository es,
      .flagSecrets ["a/k/key.md", "s/key.md"]]
    let edits' : List Edit := edits ++ [.toggleDirectory "a"]
    let e := (ofConfig {}).run edits
    let e' := (ofConfig {}).run edits'
    (e.selection.state "a" = .indeterminate ∧ e.Picks (e.toggleDirectory "./a/").2 "a" ∧
        (e.toggleDirectory "./a/").2.selection.state "a/k" = .checked) ∧
      (e'.selection.state "a" = .checked ∧ e'.Unpicks (e'.toggleDirectory "a").2 "a" ∧
        "a/k/z.md" ∉ (e'.toggleDirectory "a").2.selection.files) ∧
      (e.toggleDirectory "s").2.selection = e.selection ∧
      e.toggleDirectory "c.md" = (false, e) := by
  intro repository es edits edits' e e'
  have hdirs : "a" ∈ e.tree.dirPaths ∧ "a/k" ∈ e.tree.dirPaths ∧ "s" ∈ e.tree.dirPaths ∧
      "a" ∈ e'.tree.dirPaths := by decide +kernel
  have hpath : Path.normalize "./a/" = some "a" ∧ Path.normalize "a" = some "a" ∧
      Path.normalize "s" = some "s" := by decide +kernel
  have hstate : e.selection.state "a" = .indeterminate ∧ e'.selection.state "a" = .checked := by
    decide +kernel
  have hfree : e.Selectable "a/k" "a/k/z.md" := by
    rw [selectable_iff]
    decide +kernel
  have hbelow : "a/k/z.md" ∈ e'.filesBelow "a" := by decide +kernel
  have hmask : ¬ (e'.isExcluded "a/k/z.md" = false ∧
      (e'.filtersOn = false ∨ e'.mask.accepts "a/k/z.md" = true)) := by decide +kernel
  have hsecret : (e.selection.counts "s").isDisabled = true := by decide +kernel
  have hpicks : e.Picks (e.toggleDirectory "./a/").2 "a" :=
    ((toggleDirectory_run {} edits "./a/").2 "a" hdirs.1 hpath.1).2.2.1 (by rw [hstate.1]; decide)
  have hunpicks : e'.Unpicks (e'.toggleDirectory "a").2 "a" :=
    ((toggleDirectory_run {} edits' "a").2 "a" hdirs.2.2.2 hpath.2.1).2.1 hstate.2
  have hkeeps : e.KeepsOutside (e.toggleDirectory "s").2 "s" :=
    ((toggleDirectory_run {} edits "s").2 "s" hdirs.2.2.1 hpath.2.2).2.2.2
  exact ⟨⟨hstate.1, hpicks, hpicks.state_eq "a/k" hdirs.2.1 (.inr (by decide)) ⟨_, hfree⟩⟩,
    ⟨hstate.2, hunpicks, fun hin => hmask ((hunpicks.mem_files_iff _ hbelow).1 hin)⟩,
    hkeeps.selection_eq hsecret, (toggleDirectory_run {} edits "c.md").1 (by decide +kernel)⟩

end Explorer

end TreeSelection
