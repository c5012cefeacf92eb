import TreeSelection.Proofs.Exclusion
import TreeSelection.Proofs.Explorer.Exclusion
import TreeSelection.Proofs.Tree.Nesting

/-!
The paths that a session holds. In whatever spellings they came, what is picked, flagged, barred and
selected are the canonical paths of files of the tree as it is now, and what is collapsed are
canonical paths.
-/

namespace TreeSelection

namespace TextSet

variable {s : TextSet} {p : String}

theorem mem_of_mem_toggleFile {path : String} (hp : p ∈ (s.toggleFile path).2) :
    Path.normalize path = some p ∨ p ∈ s := by
  unfold toggleFile at hp
  split at hp
  · next q hq =>
    rw [mem_toggle] at hp
    split at hp
    · next heq => exact .inl (heq ▸ hq)
    · exact .inr hp
  · exact .inr hp

theorem mem_of_mem_toggleFiles {files : List String} {counts : Counts}
    (hp : p ∈ s.toggleFiles files counts) : p ∈ files ∨ p ∈ s := by
  unfold toggleFiles at hp
  split at hp
  · exact .inr (mem_filter.1 hp).1
  · exact (mem_union.1 hp).imp_left mem_ofList.1

end TextSet

namespace Explorer

structure Placed (e : Explorer) : Prop where
  picked : ∀ p ∈ e.picked, p ∈ e.tree.filePaths
  secrets : ∀ p ∈ e.secrets, p ∈ e.tree.filePaths
  collapsed : ∀ p ∈ e.collapsed, Path.normalize p = some p

structure Anchored (e : Explorer) : Prop extends Placed e where
  barred : ∀ p ∈ e.barred, p ∈ e.tree.filePaths

variable {e : Explorer}

theorem ofConfig_anchored [Glob.Limit] (config : Config) : (ofConfig config).Anchored where
  picked _ hp := (TextSet.not_mem_empty hp).elim
  secrets _ hp := (TextSet.not_mem_empty hp).elim
  collapsed _ hp := (TextSet.not_mem_empty hp).elim
  barred _ hp := (TextSet.not_mem_empty hp).elim

theorem reset_anchored (e : Explorer) : e.reset.Anchored where
  picked _ hp := (TextSet.not_mem_empty hp).elim
  secrets _ hp := (TextSet.not_mem_empty hp).elim
  collapsed _ hp := (TextSet.not_mem_empty hp).elim
  barred _ hp := (TextSet.not_mem_empty hp).elim

theorem Placed.exclude (h : e.Placed) : e.exclude.Anchored where
  toPlaced := ⟨h.picked, h.secrets, h.collapsed⟩
  barred f hf := by
    obtain ⟨x, hx, rfl⟩ := List.mem_map.1 (TextSet.mem_ofList.1 hf)
    rcases mem_exclusions_exclude.1 hx with ⟨hsecret, -⟩ | ⟨-, hx⟩
    · exact h.secrets _ hsecret
    · exact Policy.mem_filePaths_of_mem_exclusions hx

theorem Anchored.resolve (h : e.Anchored) : e.resolve.Anchored :=
  ⟨⟨h.picked, h.secrets, h.collapsed⟩, h.barred⟩

theorem Anchored.pick (h : e.Anchored) {picked : TextSet}
    (hpicked : ∀ p ∈ picked, p ∈ e.tree.filePaths) : { e with picked }.resolve.Anchored :=
  Anchored.resolve ⟨⟨hpicked, h.secrets, h.collapsed⟩, h.barred⟩

theorem Anchored.setView (h : e.Anchored) (config : Config) {collapsed : TextSet}
    (hcollapsed : ∀ p ∈ collapsed, Path.normalize p = some p) (search : String) :
    { e with config, collapsed, search }.Anchored :=
  ⟨⟨h.picked, h.secrets, hcollapsed⟩, h.barred⟩

theorem normalize_of_mem_directories (h : e.tree.Shaped "") {p : String} (hp : p ∈ e.directories) :
    Path.normalize p = some p := by
  obtain ⟨l, hl, rfl⟩ := List.mem_map.1 (TextSet.mem_ofList.1 hp)
  obtain ⟨children, hd⟩ := Tree.mem_dirs.1 hl
  exact h.normalize_path hd

theorem Anchored.load (h : e.Anchored) (repository : Repository) (entries : List Entry) :
    (e.load repository entries).Anchored := by
  unfold Explorer.load
  apply Anchored.resolve
  apply Placed.exclude
  split
  · exact {
      picked := fun p hp => by simpa using (TextSet.mem_filter.1 hp).2
      secrets := fun p hp => by simpa using (TextSet.mem_filter.1 hp).2
      collapsed := fun p hp => h.collapsed p (TextSet.mem_filter.1 hp).1 }
  · refine ⟨fun _ hp => (TextSet.not_mem_empty hp).elim,
      fun _ hp => (TextSet.not_mem_empty hp).elim, fun p hp => ?_⟩
    change p ∈ (if e.config.collapseDirectories then _ else _) at hp
    split at hp
    · exact normalize_of_mem_directories (Tree.shaped_ofEntries entries) hp
    · exact (TextSet.not_mem_empty hp).elim

theorem Anchored.toggleFile [Glob.Limit] (h : e.Anchored) (hsound : e.Sound) (path : String) :
    (e.toggleFile path).2.Anchored := by
  unfold Explorer.toggleFile
  split
  · next hfile =>
    refine h.pick fun p hp => ?_
    rcases TextSet.mem_of_mem_toggleFile hp with hp | hp
    · obtain ⟨f, hf, hpath⟩ := hsound.isFile_iff.1 hfile
      obtain rfl := Option.some.inj (hpath.symm.trans hp)
      exact hf
    · exact h.picked p hp
  · exact h

theorem Anchored.toggleDirectory [Glob.Limit] (h : e.Anchored) (hsound : e.Sound) (path : String) :
    (e.toggleDirectory path).2.Anchored := by
  unfold Explorer.toggleDirectory
  split
  · next l children hfind =>
    have hd := (hsound.shaped.find_eq_some_iff.1 hfind).1
    have hbelow : _ = children.filePaths := hsound.shaped.filter_isBelow_filePaths hd rfl
    refine h.pick fun p hp => ?_
    rcases TextSet.mem_of_mem_toggleFiles hp with hp | hp
    · rw [← hbelow] at hp
      exact List.mem_of_mem_filter hp
    · exact h.picked p hp
  · exact h

theorem Anchored.selectAll (h : e.Anchored) : e.selectAll.Anchored :=
  h.pick fun p hp => (TextSet.mem_union.1 hp).elim TextSet.mem_ofList.1 (h.picked p)

theorem Anchored.toggleCollapsed (h : e.Anchored) (path : String) :
    (e.toggleCollapsed path).Anchored := by
  unfold Explorer.toggleCollapsed
  split
  · next q hq =>
    refine h.setView _ (fun p hp => ?_) _
    rw [TextSet.mem_toggle] at hp
    split at hp
    · next heq => exact heq ▸ Path.normalize_of_normalize hq
    · exact h.collapsed p hp
  · exact h

theorem Sound.mem_filePaths_of_isFile [Glob.Limit] (h : e.Sound) {s p : String}
    (hs : Path.normalize s = some p) (hp : e.isFile p = true) : p ∈ e.tree.filePaths := by
  obtain ⟨f, hf, hpath⟩ := h.isFile_iff.1 hp
  rw [Path.normalize_of_normalize hs] at hpath
  exact Option.some.inj hpath ▸ hf

theorem Anchored.flagSecrets [Glob.Limit] (h : e.Anchored) (hsound : e.Sound)
    (paths : List String) :
    (e.flagSecrets paths).Anchored := by
  apply Anchored.resolve
  apply Placed.exclude
  refine ⟨h.picked, fun p hp => ?_, h.collapsed⟩
  rcases mem_secrets_flagSecrets.1 hp with ⟨⟨s, -, hs⟩, hfile⟩ | hp
  · exact hsound.mem_filePaths_of_isFile hs hfile
  · exact h.secrets p hp

theorem Anchored.perform [Glob.Limit] (h : e.Anchored) (hsound : e.Sound) (edit : Edit) :
    (e.perform edit).Anchored := by
  cases edit with
  | load repository entries => exact h.load repository entries
  | reset => exact reset_anchored e
  | setMasks includes excludes =>
    exact Anchored.resolve ⟨⟨h.picked, h.secrets, h.collapsed⟩, h.barred⟩
  | setFilters on => exact Anchored.resolve ⟨⟨h.picked, h.secrets, h.collapsed⟩, h.barred⟩
  | toggleFile path => exact h.toggleFile hsound path
  | toggleDirectory path => exact h.toggleDirectory hsound path
  | selectAll => exact h.selectAll
  | deselectAll => exact h.pick fun _ hp => (TextSet.not_mem_empty hp).elim
  | toggleCollapsed path => exact h.toggleCollapsed path
  | collapseAll => exact h.setView _ (fun _ hp => normalize_of_mem_directories hsound.shaped hp) _
  | expandAll => exact h.setView _ (fun _ hp => (TextSet.not_mem_empty hp).elim) _
  | search text => exact h.setView _ h.collapsed _
  | flagSecrets paths => exact h.flagSecrets hsound paths
  | setConfig config => exact h.setView _ h.collapsed _

theorem Anchored.run [Glob.Limit] (h : e.Anchored) (hcoherent : e.Coherent) (edits : List Edit) :
    (e.run edits).Anchored := by
  induction edits generalizing e with
  | nil => exact h
  | cons edit edits ih =>
    exact ih (h.perform hcoherent.toSound edit) (hcoherent.perform edit)

theorem anchored_run [Glob.Limit] (config : Config) (edits : List Edit) :
    ((ofConfig config).run edits).Anchored :=
  (ofConfig_anchored config).run (ofConfig_coherent config) edits

structure HasFile (e : Explorer) (p : String) : Prop where
  normalize_eq : Path.normalize p = some p
  find_eq : ∃ l, l.path = p ∧ e.tree.find p = some (.file l)

theorem Sound.hasFile [Glob.Limit] (h : e.Sound) {p : String} (hp : p ∈ e.tree.filePaths) :
    e.HasFile p := by
  have hpath := h.normalize_of_mem_filePaths hp
  obtain ⟨l, hl, rfl⟩ := List.mem_map.1 hp
  exact ⟨hpath, l, rfl, h.shaped.find_eq_some_iff.2 ⟨Tree.mem_files.1 hl, hpath⟩⟩

theorem Coherent.mem_filePaths_of_mem_files [Glob.Limit] (h : e.Coherent) {p : String}
    (hp : p ∈ e.selection.files) : p ∈ e.tree.filePaths := by
  rw [h.selection, Selection.ofTree, Selection.files_ofRule] at hp
  exact List.mem_of_mem_filter hp

/-- Nothing that the session holds points to a file that is not there. -/
structure NoDangling (e : Explorer) : Prop where
  picked : ∀ p ∈ e.picked, e.HasFile p
  secrets : ∀ p ∈ e.secrets, e.HasFile p
  barred : ∀ p ∈ e.barred, e.HasFile p
  mem_barred_iff : ∀ p, p ∈ e.barred ↔ ∃ reason, e.reason? p = some reason
  selected : ∀ p ∈ e.selection.files, e.HasFile p ∧ p ∉ e.barred
  collapsed : ∀ p ∈ e.collapsed, Path.normalize p = some p

theorem noDangling_run [Glob.Limit] (config : Config) (edits : List Edit) :
    ((ofConfig config).run edits).NoDangling := by
  have h := coherent_run config edits
  have hanchored := anchored_run config edits
  exact {
    picked := fun p hp => h.hasFile (hanchored.picked p hp)
    secrets := fun p hp => h.hasFile (hanchored.secrets p hp)
    barred := fun p hp => h.hasFile (hanchored.barred p hp)
    mem_barred_iff := fun p => h.mem_barred_iff
    selected := fun p hp => by
      have hfile := h.mem_filePaths_of_mem_files hp
      have hpath := h.normalize_of_mem_filePaths hfile
      exact ⟨h.hasFile hfile, fun hbarred => h.not_mem_files_of_mem_barred hbarred hpath hp⟩
    collapsed := hanchored.collapsed }

theorem noDangling_run_respelled :
    let repository : Repository := ⟨"o", "r", none⟩
    let before : List Entry := [⟨"a/b.md", .file, {}⟩, ⟨"a/key.md", .file, {}⟩, ⟨"c", .file, {}⟩]
    let after : List Entry := [⟨"c/d", .file, {}⟩, ⟨"a\\key.md", .file, {}⟩, ⟨"./a/b.md", .file, {}⟩]
    let e := (ofConfig {}).run [.load repository before, .toggleFile "a\\b.md", .toggleFile "c",
      .flagSecrets ["./a/key.md", "x"], .toggleCollapsed "c/", .load repository after]
    "a/b.md" ∈ e.picked ∧ "c" ∉ e.picked ∧ e.HasFile "a/b.md" ∧
      "a/key.md" ∈ e.secrets ∧ "a/key.md" ∈ e.barred ∧ e.HasFile "a/key.md" ∧
      "c" ∈ e.collapsed ∧ Path.normalize "c" = some "c" := by
  intro repository before after e
  have h : e.NoDangling := noDangling_run {} _
  have hpicked : "a/b.md" ∈ e.picked ∧ "c" ∉ e.picked := by decide +kernel
  have hflagged : "a/key.md" ∈ e.secrets ∧ "a/key.md" ∈ e.barred := by decide +kernel
  have hcollapsed : "c" ∈ e.collapsed := by decide +kernel
  exact ⟨hpicked.1, hpicked.2, h.picked _ hpicked.1, hflagged.1, hflagged.2,
    h.barred _ hflagged.2, hcollapsed, h.collapsed _ hcollapsed⟩

end Explorer

end TreeSelection
