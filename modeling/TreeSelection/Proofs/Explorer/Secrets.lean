import TreeSelection.Proofs.Explorer.Exclusion

namespace TreeSelection

/-- The edit leaves the repository loaded, and a listing that it brings has a file there. -/
def Edit.retains (repository : Option Repository) (f : String) : Edit → Bool
  | .load another entries =>
    repository == some another && (Tree.ofEntries entries).filePaths.contains f
  | .reset => false
  | _ => true

namespace Explorer

/-- The file is kept back as a secret: it is shown as one, cannot be selected and is in no export,
each of which names its files. -/
structure Withholds (e : Explorer) (f : String) : Prop where
  reason : e.reason? f = some .secret
  isExcluded : e.isExcluded f = true
  not_selected : f ∉ e.selection.files
  request : ∀ format, ∃ r files,
    e.request? format = some r ∧ r.contents = .explicit files ∧ f ∉ files

structure Flags (e : Explorer) (repository : Option Repository) (f : String) : Prop where
  loaded : e.repository = repository
  file : f ∈ e.tree.filePaths
  secret : f ∈ e.secrets
  reason : e.reason? f = some .secret

variable {e : Explorer} {repository : Option Repository} {f : String}

section

variable [Glob.Limit]

theorem Coherent.withholds (h : e.Coherent) (hidle : e.IsIdle) (hflags : e.Flags repository f) :
    e.Withholds f := by
  have hbarred : f ∈ e.barred := h.mem_barred_iff.2 ⟨_, hflags.reason⟩
  have hfiles : f ∉ e.selection.files :=
    h.not_mem_files_of_mem_barred hbarred (h.normalize_of_mem_filePaths hflags.file)
  refine ⟨hflags.reason, by simp [Explorer.isExcluded, hbarred], hfiles, fun format => ?_⟩
  cases hrepository : e.repository with
  | none =>
    have hfile := hflags.file
    rw [hidle hrepository] at hfile
    cases hfile
  | some r =>
    have hnonempty : e.barred.isEmpty = false := by
      rw [← Bool.not_eq_true, TextSet.isEmpty_iff]
      intro hempty
      rw [hempty] at hbarred
      exact TextSet.not_mem_empty hbarred
    simp only [request?, hrepository, hnonempty, Option.map_some, Bool.and_false]
    exact ⟨_, _, rfl, rfl, hfiles⟩

theorem Coherent.flags_flagSecrets (h : e.Coherent) (hfile : f ∈ e.tree.filePaths)
    {paths : List String} (hflag : ∃ p ∈ paths, Path.normalize p = some f) :
    (e.flagSecrets paths).Flags e.repository f := by
  have hisFile : e.isFile f = true :=
    h.isFile_iff.2 ⟨f, hfile, h.normalize_of_mem_filePaths hfile⟩
  have hsecret := mem_secrets_flagSecrets.2 (.inl ⟨hflag, hisFile⟩)
  exact ⟨rfl, hfile, hsecret, reason?_flagSecrets hsecret⟩

theorem Flags.perform (h : e.Flags repository f) {edit : Edit}
    (hedit : edit.retains repository f = true) : (e.perform edit).Flags repository f := by
  cases hlisting : edit.changesListing with
  | false =>
    have hsame := sameListing_perform e hlisting
    exact ⟨hsame.repository.trans h.loaded, hsame.tree ▸ h.file, hsame.secrets ▸ h.secret,
      (hsame.reason? f).trans h.reason⟩
  | true =>
    cases edit with
    | load another entries =>
      rw [Edit.retains, Bool.and_eq_true, beq_iff_eq, List.contains_iff_mem] at hedit
      obtain ⟨rfl, hfile⟩ := hedit
      have hsecret := (mem_secrets_load another entries h.loaded).2 ⟨h.secret, hfile⟩
      exact ⟨rfl, (tree_load another entries).symm ▸ hfile, hsecret,
        reason?_load another entries hsecret⟩
    | reset => cases hedit
    | flagSecrets paths =>
      have hsecret : f ∈ (e.flagSecrets paths).secrets :=
        mem_secrets_flagSecrets.2 (.inr h.secret)
      exact ⟨h.loaded, h.file, hsecret, reason?_flagSecrets hsecret⟩
    | _ => cases hlisting

theorem withholds_run (config : Config) (before after : List Edit) (paths : List String)
    (hfile : f ∈ ((ofConfig config).run before).tree.filePaths)
    (hflag : ∃ p ∈ paths, Path.normalize p = some f)
    (hafter : ∀ edit ∈ after, edit.retains ((ofConfig config).run before).repository f = true) :
    ((((ofConfig config).run before).flagSecrets paths).run after).Withholds f := by
  have hflags := (coherent_run config before).flags_flagSecrets hfile hflag
  have hrun := run_invariant (P := (·.Flags _ f)) hflags hafter fun e edit h hedit =>
    h.perform hedit
  have hedits : (((ofConfig config).run before).flagSecrets paths).run after =
      (ofConfig config).run (before ++ .flagSecrets paths :: after) := by
    simp [run, List.foldl_append, perform]
  rw [hedits] at hrun ⊢
  exact (coherent_run config _).withholds (isIdle_run config _) hrun

end

theorem withholds_run_picked :
    let repository : Repository := ⟨"o", "r", none⟩
    let es : List Entry := [⟨"a/key.pem", .file, {}⟩, ⟨"a/b.md", .file, {}⟩]
    let e := (ofConfig {}).run [.load repository es, .toggleFile "a/key.pem"]
    let paths := [".\\a\\key.pem"]
    let after : List Edit :=
      [.selectAll, .setFilters false, .setConfig { barBinary := false },
        .load repository [⟨"a//key.pem", .file, {}⟩], .setMasks ["a/*"] [], .toggleDirectory "a",
        .flagSecrets []]
    "a/key.pem" ∈ e.tree.filePaths ∧ (∃ p ∈ paths, Path.normalize p = some "a/key.pem") ∧
      (∀ edit ∈ after, edit.retains e.repository "a/key.pem" = true) ∧
      ((e.flagSecrets paths).run after).Withholds "a/key.pem" := by
  intro repository es e paths after
  have hfile : "a/key.pem" ∈ e.tree.filePaths := by decide +kernel
  have hflag : ∃ p ∈ paths, Path.normalize p = some "a/key.pem" := by decide +kernel
  have hafter : ∀ edit ∈ after, edit.retains e.repository "a/key.pem" = true := by decide +kernel
  exact ⟨hfile, hflag, hafter, withholds_run {} _ after paths hfile hflag hafter⟩

end Explorer

end TreeSelection
