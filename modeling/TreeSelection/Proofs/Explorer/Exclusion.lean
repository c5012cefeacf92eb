import TreeSelection.Proofs.Explorer.Coherence
import TreeSelection.Proofs.Selection.Resolution
import TreeSelection.Proofs.Tree.Lookup

namespace TreeSelection

def Edit.changesListing : Edit → Bool
  | .load _ _ | .reset | .flagSecrets _ => true
  | _ => false

theorem Choice.decide_of_mem_barred {c : Choice} {path : String} (h : path ∈ c.barred)
    (hpath : Path.normalize path = some path) (mask : Mask) :
    c.normalized.decide mask path = .excluded := by
  have hbarred : path ∈ c.normalized.barred := TextSet.mem_normalized.2 ⟨path, h, hpath⟩
  rw [decide_eq_excluded_iff, TextSet.contains_iff.2 hbarred, Bool.true_or]

namespace Explorer

variable {e : Explorer} {f : String}

theorem run_invariant [Glob.Limit] {P : Explorer → Prop} {A : Edit → Prop} {edits : List Edit}
    (h : P e) (hedits : ∀ edit ∈ edits, A edit)
    (hstep : ∀ e edit, P e → A edit → P (e.perform edit)) : P (e.run edits) := by
  induction edits generalizing e with
  | nil => exact h
  | cons edit edits ih =>
    obtain ⟨hedit, hedits⟩ := List.forall_mem_cons.1 hedits
    exact ih (hstep e edit h hedit) hedits

theorem reachable_invariant [Glob.Limit] {P : Explorer → Prop} {config : Config}
    (h : P (ofConfig config))
    (hstep : ∀ e edit, e.Coherent → P e → P (e.perform edit)) (edits : List Edit) :
    P ((ofConfig config).run edits) := by
  have hrun : ((ofConfig config).run edits).Coherent ∧ P ((ofConfig config).run edits) :=
    run_invariant (P := fun e => e.Coherent ∧ P e) (A := fun _ => True)
      ⟨ofConfig_coherent config, h⟩ (fun _ _ => trivial)
      fun e edit he _ => ⟨he.1.perform edit, hstep e edit he.1 he.2⟩
  exact hrun.2

structure SameListing (e e' : Explorer) : Prop where
  repository : e'.repository = e.repository
  tree : e'.tree = e.tree
  secrets : e'.secrets = e.secrets
  exclusions : e'.exclusions = e.exclusions

theorem sameListing_perform [Glob.Limit] (e : Explorer) {edit : Edit}
    (h : edit.changesListing = false) :
    e.SameListing (e.perform edit) := by
  cases edit with
  | load repository entries => cases h
  | reset => cases h
  | flagSecrets paths => cases h
  | toggleFile path =>
    simp only [perform, toggleFile]
    split <;> exact ⟨rfl, rfl, rfl, rfl⟩
  | toggleDirectory path =>
    simp only [perform, toggleDirectory]
    split <;> exact ⟨rfl, rfl, rfl, rfl⟩
  | toggleCollapsed path =>
    simp only [perform, toggleCollapsed]
    split <;> exact ⟨rfl, rfl, rfl, rfl⟩
  | _ => exact ⟨rfl, rfl, rfl, rfl⟩

theorem SameListing.reason? {e' : Explorer} (h : e.SameListing e') (f : String) :
    e'.reason? f = e.reason? f := by
  rw [Explorer.reason?, h.exclusions, Explorer.reason?]

def IsIdle (e : Explorer) : Prop := e.repository = none → e.tree = .nil

theorem isIdle_run [Glob.Limit] (config : Config) (edits : List Edit) :
    ((ofConfig config).run edits).IsIdle := by
  refine reachable_invariant (P := IsIdle) (fun _ => rfl) ?_ edits
  intro e edit _ h
  cases hedit : edit.changesListing with
  | false =>
    have hsame := sameListing_perform e hedit
    rwa [IsIdle, hsame.repository, hsame.tree]
  | true =>
    cases edit with
    | load repository entries => exact fun hnone => nomatch hnone
    | reset => exact fun _ => rfl
    | flagSecrets paths => exact h
    | _ => cases hedit

theorem reason?_exclude (h : f ∈ e.secrets) : e.exclude.reason? f = some .secret := by
  have hfind : e.secrets.toList.find? (· == f) = some f := by
    cases hfind : e.secrets.toList.find? (· == f) with
    | none => exact absurd (List.find?_eq_none.1 hfind f h) (by simp)
    | some p =>
      have hp := List.find?_some hfind
      rw [eq_of_beq hp]
  have hsecret : (e.secrets.toList.map (⟨·, .secret⟩ : String → Exclusion)).find? (·.path == f) =
      some ⟨f, .secret⟩ := by
    rw [List.find?_map]
    show (e.secrets.toList.find? (· == f)).map _ = _
    rw [hfind, Option.map_some]
  simp only [Explorer.reason?, exclude]
  rw [List.find?_append, hsecret]
  rfl

theorem mem_exclusions_exclude {x : Exclusion} : x ∈ e.exclude.exclusions ↔
    x.path ∈ e.secrets ∧ x.reason = .secret ∨
      x.path ∉ e.secrets ∧ x ∈ (Policy.ofConfig e.config).exclusions e.tree := by
  obtain ⟨path, reason⟩ := x
  simp only [exclude, List.mem_append, List.mem_map, List.mem_filter, ← TextSet.mem_def]
  refine or_congr ?_ ?_
  · simp [eq_comm]
  · simp [and_comm]

theorem Sound.shaped [Glob.Limit] (h : e.Sound) : e.tree.Shaped "" :=
  h.tree ▸ Tree.shaped_ofEntries e.entries

theorem Sound.isFile_iff [Glob.Limit] (h : e.Sound) {p : String} :
    e.isFile p = true ↔ ∃ f ∈ e.tree.filePaths, Path.normalize p = some f :=
  h.shaped.any_find_iff

theorem Sound.normalize_of_mem_filePaths [Glob.Limit] (h : e.Sound) (hf : f ∈ e.tree.filePaths) :
    Path.normalize f = some f := by
  rw [h.tree] at hf
  exact Tree.normalize_of_mem_filePaths hf

theorem mem_secrets_flagSecrets {paths : List String} : f ∈ (e.flagSecrets paths).secrets ↔
    ((∃ p ∈ paths, Path.normalize p = some f) ∧ e.isFile f = true) ∨ f ∈ e.secrets := by
  show f ∈ TextSet.union _ _ ↔ _
  rw [TextSet.mem_union, TextSet.mem_ofList, List.mem_filter, List.mem_filterMap]

theorem reason?_flagSecrets {paths : List String} (h : f ∈ (e.flagSecrets paths).secrets) :
    (e.flagSecrets paths).reason? f = some .secret :=
  reason?_exclude h

section

variable (repository : Repository) (entries : List Entry)

theorem tree_load : (e.load repository entries).tree = .ofEntries entries := by
  show (ite _ _ _ : Explorer).tree = _
  split <;> rfl

theorem mem_secrets_load (h : e.repository = some repository) :
    f ∈ (e.load repository entries).secrets ↔
      f ∈ e.secrets ∧ f ∈ (Tree.ofEntries entries).filePaths := by
  show f ∈ (ite _ _ _ : Explorer).secrets ↔ _
  rw [if_pos h, TextSet.mem_filter, TextSet.contains_iff, TextSet.mem_ofList]

theorem reason?_load (h : f ∈ (e.load repository entries).secrets) :
    (e.load repository entries).reason? f = some .secret :=
  reason?_exclude h

end

theorem Sound.mem_barred_iff [Glob.Limit] (h : e.Sound) :
    f ∈ e.barred ↔ ∃ reason, e.reason? f = some reason := by
  rw [← Option.isSome_iff_exists, Explorer.reason?, Option.isSome_map, List.find?_isSome, h.barred,
    TextSet.mem_ofList, List.mem_map]
  simp

theorem Coherent.not_mem_files_of_mem_barred [Glob.Limit] (h : e.Coherent) (hf : f ∈ e.barred)
    (hpath : Path.normalize f = some f) : f ∉ e.selection.files := by
  have hbarred : f ∈ e.choice.barred := hf
  rw [h.selection, Selection.ofTree, Selection.files_ofRule, List.mem_filter,
    Choice.decide_of_mem_barred hbarred hpath]
  simp

end Explorer

end TreeSelection
