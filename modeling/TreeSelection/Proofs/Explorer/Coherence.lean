import TreeSelection.Explorer.Edit
import TreeSelection.Proofs.Glob.Mask

/-!
What a session keeps beside its listing, its patterns and its choice follows from them, whatever
edits led to it.
-/

namespace TreeSelection

theorem Selection.ofTree_nil (mask : Mask) (choice : Choice) : ofTree .nil mask choice = {} := rfl

namespace Explorer

variable [Glob.Limit]

structure Sound (e : Explorer) : Prop where
  cache : e.cache.Faithful
  mask : e.mask = .ofPatterns e.includes e.excludes
  tree : e.tree = .ofEntries e.entries
  barred : e.barred = .ofList (e.exclusions.map (·.path))

structure Coherent (e : Explorer) : Prop extends Sound e where
  selection : e.selection = .ofTree e.tree e.mask e.choice

variable {e : Explorer}

theorem Sound.resolve (h : e.Sound) : e.resolve.Coherent where
  toSound := ⟨h.cache, h.mask, h.tree, h.barred⟩
  selection := rfl

theorem Sound.exclude (h : e.Sound) : e.exclude.Sound where
  cache := h.cache
  mask := h.mask
  tree := h.tree
  barred := rfl

theorem ofConfig_coherent (config : Config) : (ofConfig config).Coherent := by
  have hmask := Glob.Cache.faithful_empty.mask config.includes config.excludes
  exact ⟨⟨hmask.2, hmask.1, rfl, rfl⟩, rfl⟩

theorem Sound.load (h : e.Sound) (repository : Repository) (entries : List Entry) :
    (e.load repository entries).Coherent := by
  unfold Explorer.load
  apply Sound.resolve
  apply Sound.exclude
  split
  · exact ⟨h.cache, h.mask, rfl, h.barred⟩
  · exact ⟨h.cache, h.mask, rfl, h.barred⟩

theorem Sound.reset (h : e.Sound) : e.reset.Coherent where
  toSound := ⟨h.cache, h.mask, rfl, rfl⟩
  selection := (Selection.ofTree_nil _ _).symm

theorem Sound.setMasks (h : e.Sound) (includes excludes : List String) :
    (e.setMasks includes excludes).Coherent := by
  have hmask := h.cache.mask includes excludes
  apply Sound.resolve
  exact ⟨hmask.2, hmask.1, h.tree, h.barred⟩

theorem Sound.setFilters (h : e.Sound) (on : Bool) : (e.setFilters on).Coherent := by
  apply Sound.resolve
  exact ⟨h.cache, h.mask, h.tree, h.barred⟩

theorem Sound.pick (h : e.Sound) (picked : TextSet) : { e with picked }.resolve.Coherent := by
  apply Sound.resolve
  exact ⟨h.cache, h.mask, h.tree, h.barred⟩

theorem Coherent.toggleFile (h : e.Coherent) (path : String) : (e.toggleFile path).2.Coherent := by
  unfold Explorer.toggleFile
  split
  · exact h.pick _
  · exact h

theorem Coherent.toggleDirectory (h : e.Coherent) (path : String) :
    (e.toggleDirectory path).2.Coherent := by
  unfold Explorer.toggleDirectory
  split
  · exact h.pick _
  · exact h

theorem Sound.flagSecrets (h : e.Sound) (paths : List String) : (e.flagSecrets paths).Coherent := by
  apply Sound.resolve
  apply Sound.exclude
  exact ⟨h.cache, h.mask, h.tree, h.barred⟩

theorem Coherent.setView (h : e.Coherent) (config : Config) (collapsed : TextSet)
    (search : String) : { e with config, collapsed, search }.Coherent :=
  ⟨⟨h.cache, h.mask, h.tree, h.barred⟩, h.selection⟩

theorem Coherent.toggleCollapsed (h : e.Coherent) (path : String) :
    (e.toggleCollapsed path).Coherent := by
  unfold Explorer.toggleCollapsed
  split
  · exact h.setView _ _ _
  · exact h

theorem Coherent.perform (h : e.Coherent) (edit : Edit) : (e.perform edit).Coherent := by
  cases edit with
  | load repository entries => exact h.load repository entries
  | reset => exact h.reset
  | setMasks includes excludes => exact h.setMasks includes excludes
  | setFilters on => exact h.setFilters on
  | toggleFile path => exact h.toggleFile path
  | toggleDirectory path => exact h.toggleDirectory path
  | selectAll => exact h.pick _
  | deselectAll => exact h.pick _
  | toggleCollapsed path => exact h.toggleCollapsed path
  | collapseAll => exact h.setView _ _ _
  | expandAll => exact h.setView _ _ _
  | search text => exact h.setView _ _ _
  | flagSecrets paths => exact h.flagSecrets paths
  | setConfig config => exact h.setView _ _ _

theorem Coherent.run (h : e.Coherent) (edits : List Edit) : (e.run edits).Coherent := by
  induction edits generalizing e with
  | nil => exact h
  | cons edit edits ih => exact ih (h.perform edit)

theorem coherent_run (config : Config) (edits : List Edit) :
    ((ofConfig config).run edits).Coherent :=
  (ofConfig_coherent config).run edits

/-- After any edits the tree is that of the listing, and the selection the one made from scratch. -/
theorem selection_run (config : Config) (edits : List Edit) :
    let e := (ofConfig config).run edits
    e.tree = .ofEntries e.entries ∧
      e.selection =
        .ofEntries e.entries e.includes e.excludes ⟨e.picked, e.barred, e.filtersOn⟩ := by
  intro e
  have h : e.Coherent := coherent_run config edits
  refine ⟨h.tree, ?_⟩
  rw [h.selection, h.mask, h.tree]
  rfl

end Explorer

end TreeSelection
