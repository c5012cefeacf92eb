import TreeSelection.Proofs.Explorer.Expansion
import TreeSelection.Proofs.Explorer.Forgetting
import TreeSelection.Proofs.Explorer.Reasons
import TreeSelection.Proofs.Tree.Reordering

namespace TreeSelection

namespace TextSet

variable {s : TextSet} {p : String}

theorem filter_eq_self {f : String → Bool} (h : ∀ p ∈ s, f p = true) : s.filter f = s :=
  ext fun p => mem_filter.trans (and_iff_left_of_imp (h p))

end TextSet

namespace Tree

variable {t : Tree} {collapsed collapsed' : TextSet}

theorem expandedRows_congr (h : ∀ p ∈ t.dirPaths, collapsed.contains p = collapsed'.contains p)
    (depth : Nat) : t.expandedRows collapsed depth = t.expandedRows collapsed' depth := by
  induction t generalizing depth with
  | nil => rfl
  | file l rest ih => rw [expandedRows, ih h, expandedRows]
  | dir l children rest ihc ihr =>
    simp only [dirPaths, dirs, List.map_cons, List.map_append, List.forall_mem_cons,
      List.forall_mem_append] at h
    rw [expandedRows, h.1, ihc h.2.1, ihr h.2.2, expandedRows]

theorem rows_congr (h : ∀ p ∈ t.dirPaths, collapsed.contains p = collapsed'.contains p)
    (search : String) : t.rows collapsed search = t.rows collapsed' search := by
  simp only [rows]
  split
  · exact expandedRows_congr h 0
  · rfl

end Tree

namespace Explorer

variable {e : Explorer} {repository : Repository} {es : List Entry}

/-- After the repository is loaded again, all is as it was that does not hang on the listing, and of
the rest what is listed. -/
structure KeepsListed (e e' : Explorer) (es : List Entry) : Prop where
  includes : e'.includes = e.includes
  excludes : e'.excludes = e.excludes
  mask : e'.mask = e.mask
  filtersOn : e'.filtersOn = e.filtersOn
  search : e'.search = e.search
  mem_picked_iff : ∀ p, p ∈ e'.picked ↔ p ∈ e.picked ∧ p ∈ (Tree.ofEntries es).filePaths
  mem_secrets_iff : ∀ p, p ∈ e'.secrets ↔ p ∈ e.secrets ∧ p ∈ (Tree.ofEntries es).filePaths
  mem_collapsed_iff : ∀ p, p ∈ e'.collapsed ↔ p ∈ e.collapsed ∧ p ∈ (Tree.ofEntries es).dirPaths

def relisted (e : Explorer) (es : List Entry) : Explorer :=
  let tree := Tree.ofEntries es
  { e with
    tree
    entries := es
    picked := e.picked.filter (TextSet.ofList tree.filePaths).contains
    secrets := e.secrets.filter (TextSet.ofList tree.filePaths).contains
    collapsed := e.collapsed.filter (TextSet.ofList tree.dirPaths).contains }

theorem load_again (h : e.repository = some repository) (es : List Entry) :
    e.load repository es =
      ({ e.relisted es with config := e.config.withLast (some repository.text) } :
        Explorer).exclude.resolve := by
  simp only [load, if_pos h]
  rw [← h]
  rfl

theorem load_keepsListed (h : e.repository = some repository) (es : List Entry) :
    e.KeepsListed (e.load repository es) es := by
  rw [load_again h]
  refine ⟨rfl, rfl, rfl, rfl, rfl, fun p => ?_, fun p => ?_, fun p => ?_⟩
  · exact TextSet.mem_filter.trans (and_congr_right' (by simp))
  · exact TextSet.mem_filter.trans (and_congr_right' (by simp))
  · exact TextSet.mem_filter.trans (and_congr_right' (by simp))

/-- The repository loaded again, with settings that bar what is barred already, shows as it did. -/
structure OnlyRefreshes (e e' : Explorer) (repository : Repository) (es : List Entry) : Prop where
  eq : e' = { e with
    entries := es
    config := e.config.withLast (some repository.text)
    collapsed := e.collapsed.filter (TextSet.ofList e.tree.dirPaths).contains }
  rows : e'.rows = e.rows
  view : e'.view = e.view
  selection : e'.selection = e.selection
  exclusions : e'.exclusions = e.exclusions
  request? : ∀ format, e'.request? format = e.request? format

theorem relisted_eq (h : e.Anchored) (htree : Tree.ofEntries es = e.tree) : e.relisted es =
    { e with
      entries := es
      collapsed := e.collapsed.filter (TextSet.ofList e.tree.dirPaths).contains } := by
  have hpicked : e.picked.filter (TextSet.ofList e.tree.filePaths).contains = e.picked :=
    TextSet.filter_eq_self fun p hp => by simpa using h.picked p hp
  have hsecrets : e.secrets.filter (TextSet.ofList e.tree.filePaths).contains = e.secrets :=
    TextSet.filter_eq_self fun p hp => by simpa using h.secrets p hp
  simp only [relisted, htree, hpicked, hsecrets]

def IsCurrent (e : Explorer) : Prop := e.exclude.exclusions = e.exclusions

theorem load_eq [Glob.Limit] (h : e.Coherent) (hanchored : e.Anchored) (hcurrent : e.IsCurrent)
    (hloaded : e.repository = some repository) (htree : Tree.ofEntries es = e.tree) :
    e.load repository es = { e with
      entries := es
      config := e.config.withLast (some repository.text)
      collapsed := e.collapsed.filter (TextSet.ofList e.tree.dirPaths).contains } := by
  let e' : Explorer := { e with
    entries := es
    config := e.config.withLast (some repository.text)
    collapsed := e.collapsed.filter (TextSet.ofList e.tree.dirPaths).contains }
  have hexclude : e'.exclude = e' := by
    have hsame : e'.exclude = { e' with
      exclusions := e.exclude.exclusions
      barred := .ofList (e.exclude.exclusions.map (·.path)) } := rfl
    rw [hsame, hcurrent, ← h.barred]
  have hresolve : e'.resolve = e' := by
    have hsame : e'.resolve = { e' with selection := .ofTree e.tree e.mask e.choice } := rfl
    rw [hsame, ← h.selection]
  rw [load_again hloaded, relisted_eq hanchored htree]
  show e'.exclude.resolve = e'
  rw [hexclude, hresolve]

theorem rows_withCollapsed (e : Explorer) {collapsed : TextSet}
    (h : ∀ p ∈ e.tree.dirPaths, collapsed.contains p = e.collapsed.contains p) :
    ({ e with collapsed } : Explorer).rows = e.rows :=
  Tree.rows_congr h e.search

theorem rowView_withCollapsed (e : Explorer) {collapsed : TextSet}
    (h : ∀ p ∈ e.tree.dirPaths, collapsed.contains p = e.collapsed.contains p) (term : String)
    {r : Row} (hr : r.node ∈ e.tree.allNodes) :
    ({ e with collapsed } : Explorer).rowView term r = e.rowView term r := by
  obtain ⟨depth, node⟩ := r
  cases node with
  | file l => rfl
  | dir l children =>
    have hlisted : l.path ∈ e.tree.dirPaths := Tree.mem_dirPaths_of_isDir hr rfl
    simp only [rowView, Node.label, h l.path hlisted]

theorem view_withCollapsed (e : Explorer) {collapsed : TextSet}
    (h : ∀ p ∈ e.tree.dirPaths, collapsed.contains p = e.collapsed.contains p) :
    ({ e with collapsed } : Explorer).view = e.view := by
  have hrows : e.rows.map (({ e with collapsed } : Explorer).rowView (Tree.searchTerm e.search)) =
      e.rows.map (e.rowView (Tree.searchTerm e.search)) :=
    List.map_congr_left fun r hr => rowView_withCollapsed e h _ (node_mem_of_mem_rows hr)
  rw [view, view, rows_withCollapsed e h, hrows]
  rfl

theorem load_onlyRefreshes [Glob.Limit] (h : e.Coherent) (hanchored : e.Anchored)
    (hcurrent : e.IsCurrent)
    (hloaded : e.repository = some repository) (htree : Tree.ofEntries es = e.tree) :
    e.OnlyRefreshes (e.load repository es) repository es := by
  have hload := load_eq h hanchored hcurrent hloaded htree
  have hcollapsed : ∀ p ∈ e.tree.dirPaths,
      (e.collapsed.filter (TextSet.ofList e.tree.dirPaths).contains).contains p =
        e.collapsed.contains p := by
    intro p hp
    simp [hp]
  exact {
    eq := hload
    rows := by
      rw [hload]
      exact rows_withCollapsed e hcollapsed
    view := by
      rw [hload]
      exact view_withCollapsed e hcollapsed
    selection := by rw [hload]
    exclusions := by rw [hload]
    request? := fun format => by
      rw [hload]
      rfl }

theorem isCurrent_perform [Glob.Limit] {edit : Edit} (hedit : edit.excludes = true) :
    (e.perform edit).IsCurrent := by
  cases edit with
  | load repository entries => rfl
  | flagSecrets paths => rfl
  | _ => cases hedit

theorem IsCurrent.of_sameListing {e' : Explorer} (h : e.IsCurrent) (hsame : e.SameListing e')
    (hconfig : e'.config = e.config) : e'.IsCurrent := by
  simp only [IsCurrent, exclude, hconfig, hsame.tree, hsame.secrets, hsame.exclusions]
  exact h

theorem sameListing_run [Glob.Limit] (e : Explorer) {edits : List Edit}
    (hedits : ∀ edit ∈ edits, edit.changesListing = false) : e.SameListing (e.run edits) :=
  run_invariant (P := e.SameListing) ⟨rfl, rfl, rfl, rfl⟩ hedits fun e' _ h hedit =>
    have hstep := sameListing_perform e' hedit
    ⟨hstep.repository.trans h.repository, hstep.tree.trans h.tree, hstep.secrets.trans h.secrets,
      hstep.exclusions.trans h.exclusions⟩

theorem repository_run_eq_none [Glob.Limit] (h : e.repository = none) {edits : List Edit}
    (hedits : ∀ edit ∈ edits, edit.excludes = false) : (e.run edits).repository = none := by
  refine run_invariant (P := (·.repository = none)) h hedits fun e edit h hedit => ?_
  cases hlisting : edit.changesListing with
  | false => exact (sameListing_perform e hlisting).repository.trans h
  | true =>
    cases edit with
    | reset => rfl
    | load repository entries => cases hedit
    | flagSecrets paths => cases hedit
    | _ => cases hlisting

theorem changesListing_of_loaded [Glob.Limit] {edits : List Edit}
    (hedits : ∀ edit ∈ edits, edit.excludes = false)
    (hloaded : (e.run edits).repository = some repository) :
    ∀ edit ∈ edits, edit.changesListing = false := by
  intro edit hedit
  cases edit with
  | reset =>
    obtain ⟨before, after, rfl⟩ := List.append_of_mem hedit
    have hafter : ∀ edit ∈ after, edit.excludes = false := fun edit hmem =>
      hedits edit (List.mem_append_right _ (List.mem_cons_of_mem _ hmem))
    have hnone : (((e.run before).perform .reset).run after).repository = none :=
      repository_run_eq_none rfl hafter
    rw [run_append] at hloaded
    cases hnone.symm.trans hloaded
  | load repository entries => cases hedits _ hedit
  | flagSecrets paths => cases hedits _ hedit
  | _ => rfl

theorem withLast_eq_self {c : Config} {last : Option String} (h : c.lastRepository = last) :
    c.withLast last = c := by
  rw [← h]
  rfl

/-- To load the repository again keeps what is listed. If the listing says the same of each path and
the settings are those that the last load or flagging left, nothing else changes but the note of the
repository loaded last, and that only if the flagging found another one there. -/
theorem refreshes_run [Glob.Limit] (config : Config) (edits : List Edit) {repository : Repository}
    (hloaded : ((ofConfig config).run edits).repository = some repository) (es : List Entry) :
    let e := (ofConfig config).run edits
    e.KeepsListed (e.load repository es) es ∧
      ∀ before edit after, edits = before ++ edit :: after → edit.excludes = true →
        (∀ later ∈ after, later.excludes = false) →
        e.config = ((ofConfig config).run (before ++ [edit])).config →
        (∀ p, Entry.declaring p es = Entry.declaring p e.entries) →
        e.OnlyRefreshes (e.load repository es) repository es ∧
          ∀ another entries, edit = .load another entries →
            (e.load repository es).config = e.config := by
  intro e
  refine ⟨load_keepsListed hloaded es, ?_⟩
  rintro before edit after rfl hedit hafter hconfig hes
  have h : e.Coherent := coherent_run config _
  have hcut : (ofConfig config).run (before ++ edit :: after) =
      ((ofConfig config).run (before ++ [edit])).run after := by
    rw [← run_append, List.append_assoc, List.singleton_append]
  have hsame : ((ofConfig config).run (before ++ [edit])).SameListing e := by
    rw [hcut] at hloaded
    show SameListing _ ((ofConfig config).run (before ++ edit :: after))
    rw [hcut]
    exact sameListing_run _ (changesListing_of_loaded hafter hloaded)
  have hcurrent : e.IsCurrent := by
    refine IsCurrent.of_sameListing ?_ hsame hconfig
    rw [run_append]
    exact isCurrent_perform hedit
  have htree : Tree.ofEntries es = e.tree := by rw [h.tree, Tree.ofEntries_congr hes]
  have honly : e.OnlyRefreshes (e.load repository es) repository es :=
    load_onlyRefreshes h (anchored_run config _) hcurrent hloaded htree
  refine ⟨honly, ?_⟩
  rintro another entries rfl
  rw [run_append] at hsame hconfig
  have hrepository : some another = some repository := hsame.repository.symm.trans hloaded
  obtain rfl : another = repository := Option.some.inj hrepository
  have hlast : e.config.lastRepository = some another.text := by rw [hconfig]; rfl
  rw [honly.eq]
  exact withLast_eq_self hlast

theorem refreshes_run_reordered :
    let repository : Repository := ⟨"o", "r", none⟩
    let es : List Entry := [⟨"a/b.md", .file, {}⟩, ⟨"c", .dir, {}⟩, ⟨"./c/", .file, {}⟩]
    let es' : List Entry := [⟨"c", .dir, {}⟩, ⟨"a/b.md", .file, {}⟩, ⟨"./c/", .file, {}⟩]
    let edits : List Edit := [.flagSecrets [], .load repository es, .toggleFile "a/b.md",
      .toggleCollapsed "a", .toggleCollapsed "ghost"]
    let e := (ofConfig {}).run edits
    e.repository = some repository ∧ e.KeepsListed (e.load repository es') es' ∧
      e.OnlyRefreshes (e.load repository es') repository es' ∧
        (e.load repository es').config = e.config := by
  intro repository es es' edits e
  have hloaded : e.repository = some repository := by decide +kernel
  have hentries : e.entries = es := by decide +kernel
  have hconfig : e.config = ((ofConfig {}).run (edits.take 2)).config := by decide +kernel
  have hagree (p : String) : Entry.declaring p es' = Entry.declaring p e.entries := by
    have hb : Path.normalize "a/b.md" = some "a/b.md" := by decide +kernel
    have hc : Path.normalize "c" = some "c" := by decide +kernel
    have hc' : Path.normalize "./c/" = some "c" := by decide +kernel
    rw [hentries]
    simp only [Entry.declaring, es, es', List.filter_cons, hb, hc, hc']
    by_cases hp : p = "c" <;> simp [hp, eq_comm]
  obtain ⟨hkeeps, hrefresh⟩ := refreshes_run {} edits hloaded es'
  obtain ⟨honly, hsame⟩ := hrefresh [_] (.load repository es) [_, _, _] rfl rfl (by decide) hconfig
    hagree
  exact ⟨hloaded, hkeeps, honly, hsame _ _ rfl⟩

/-- Where the flagging found another repository noted, the note is changed. -/
theorem load_changes_config :
    let repository : Repository := ⟨"o", "r", none⟩
    let es : List Entry := [⟨"a.md", .file, {}⟩]
    let before : List Edit := [.load repository es, .setConfig { lastRepository := some "x/y" }]
    let e := (ofConfig {}).run (before ++ [.flagSecrets []])
    e.repository = some repository ∧ e.entries = es ∧
      ∀ collapsed, e.load repository es ≠ { e with entries := es, collapsed } := by
  intro repository es before e
  refine ⟨by decide +kernel, by decide +kernel, fun collapsed heq => ?_⟩
  have hlast : (e.load repository es).config.lastRepository = e.config.lastRepository := by
    rw [heq]
  revert hlast
  decide +kernel

end Explorer

end TreeSelection
