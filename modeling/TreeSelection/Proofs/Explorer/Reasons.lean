import TreeSelection.Proofs.Explorer.Anchoring
import TreeSelection.Proofs.Explorer.Secrets

/-!
Why a session bars a file, told by the edits that led to it. A file is barred as a secret when it was
flagged and has been listed ever since, and otherwise for what the policy had against it when it was
last asked.
-/

namespace TreeSelection

def Edit.excludes : Edit → Bool
  | .load _ _ | .flagSecrets _ => true
  | _ => false

def Edit.PutsFlag (e : Explorer) (f : String) : Edit → Prop
  | .flagSecrets paths => f ∈ e.tree.filePaths ∧ ∃ p ∈ paths, Path.normalize p = some f
  | _ => False

namespace Explorer

def FlaggedBy [Glob.Limit] (config : Config) (edits : List Edit) (f : String) : Prop :=
  ∃ before edit after, edits = before ++ edit :: after ∧
    edit.PutsFlag ((ofConfig config).run before) f ∧
    ∀ later ∈ after, later.retains ((ofConfig config).run before).repository f = true

def LastSettings [Glob.Limit] (config : Config) (edits : List Edit) (settings : Config) : Prop :=
  ∃ before edit after, edits = before ++ edit :: after ∧ edit.excludes = true ∧
    (∀ later ∈ after, later.excludes = false) ∧ ((ofConfig config).run before).config = settings

variable {e : Explorer} {f : String}

theorem run_append [Glob.Limit] (e : Explorer) (before after : List Edit) :
    e.run (before ++ after) = (e.run before).run after :=
  List.foldl_append

theorem repository_perform_of_retains [Glob.Limit] {repository : Option Repository}
    (h : e.repository = repository) {edit : Edit} (hedit : edit.retains repository f = true) :
    (e.perform edit).repository = repository := by
  cases hlisting : edit.changesListing with
  | false => exact (sameListing_perform e hlisting).repository.trans h
  | true =>
    cases edit with
    | load another entries =>
      rw [Edit.retains, Bool.and_eq_true, beq_iff_eq] at hedit
      exact hedit.1.symm
    | reset => cases hedit
    | flagSecrets paths => exact h
    | _ => cases hlisting

theorem repository_run_of_retains [Glob.Limit] {repository : Option Repository}
    (h : e.repository = repository) {edits : List Edit}
    (hedits : ∀ edit ∈ edits, edit.retains repository f = true) :
    (e.run edits).repository = repository :=
  run_invariant (P := (·.repository = repository)) h hedits
    fun _ _ h hedit => repository_perform_of_retains h hedit

theorem repository_run_of_putsFlag [Glob.Limit] {before after : List Edit} {edit : Edit}
    (hedit : edit.PutsFlag (e.run before) f)
    (hafter : ∀ later ∈ after, later.retains (e.run before).repository f = true) :
    (e.run (before ++ edit :: after)).repository = (e.run before).repository := by
  rw [run_append]
  refine repository_run_of_retains (e := (e.run before).perform edit) ?_ hafter
  cases edit with
  | flagSecrets paths => rfl
  | _ => cases hedit

theorem secrets_load_of_ne (repository : Repository) (entries : List Entry)
    (h : e.repository ≠ some repository) : (e.load repository entries).secrets = .empty := by
  show (ite _ _ _ : Explorer).secrets = _
  rw [if_neg h]

theorem Sound.mem_secrets_perform [Glob.Limit] (h : e.Sound) (edit : Edit) :
    f ∈ (e.perform edit).secrets ↔
    edit.PutsFlag e f ∨ f ∈ e.secrets ∧ edit.retains e.repository f = true := by
  cases edit with
  | load repository entries =>
    by_cases hsame : e.repository = some repository
    · rw [perform, mem_secrets_load repository entries hsame]
      simp [Edit.PutsFlag, Edit.retains, hsame]
    · rw [perform, secrets_load_of_ne repository entries hsame]
      exact iff_of_false TextSet.not_mem_empty (by simp [Edit.PutsFlag, Edit.retains, hsame])
  | reset => exact iff_of_false TextSet.not_mem_empty (by simp [Edit.PutsFlag, Edit.retains])
  | flagSecrets paths =>
    have hretains : (Edit.flagSecrets paths).retains e.repository f = true := rfl
    rw [perform, mem_secrets_flagSecrets, Edit.PutsFlag, and_iff_left hretains]
    apply or_congr_left
    constructor
    · rintro ⟨⟨p, hp, hpath⟩, hfile⟩
      exact ⟨h.mem_filePaths_of_isFile hpath hfile, p, hp, hpath⟩
    · rintro ⟨hf, hflag⟩
      exact ⟨hflag, h.isFile_iff.2 ⟨f, hf, h.normalize_of_mem_filePaths hf⟩⟩
  | _ =>
    rw [(sameListing_perform e rfl).secrets]
    simp [Edit.PutsFlag, Edit.retains]

theorem flaggedBy_concat [Glob.Limit] {config : Config} {edits : List Edit} {edit : Edit} :
    FlaggedBy config (edits ++ [edit]) f ↔
      edit.PutsFlag ((ofConfig config).run edits) f ∨
        FlaggedBy config edits f ∧ edit.retains ((ofConfig config).run edits).repository f = true := by
  rw [FlaggedBy, List.exists_cut_concat]
  refine or_congr (by simp) ?_
  simp only [List.forall_mem_append, List.forall_mem_singleton]
  constructor
  · rintro ⟨before, flag, after, rfl, hflag, hafter, hedit⟩
    refine ⟨⟨before, flag, after, rfl, hflag, hafter⟩, ?_⟩
    rwa [repository_run_of_putsFlag hflag hafter]
  · rintro ⟨⟨before, flag, after, rfl, hflag, hafter⟩, hedit⟩
    rw [repository_run_of_putsFlag hflag hafter] at hedit
    exact ⟨before, flag, after, rfl, hflag, hafter, hedit⟩

theorem mem_secrets_run_iff [Glob.Limit] (config : Config) (edits : List Edit) :
    f ∈ ((ofConfig config).run edits).secrets ↔ FlaggedBy config edits f := by
  induction edits using List.reverseRecOn with
  | nil => exact iff_of_false TextSet.not_mem_empty (by simp [FlaggedBy])
  | append_singleton edits edit ih =>
    have h := (coherent_run config edits).mem_secrets_perform (f := f) edit
    rw [flaggedBy_concat, ← ih, run_append]
    exact h

def Follows (e : Explorer) (settings : Config) : Prop :=
  ∀ f reason, e.reason? f = some reason ↔ f ∈ e.secrets ∧ reason = .secret ∨
    f ∉ e.secrets ∧ ⟨f, reason⟩ ∈ (Policy.ofConfig settings).exclusions e.tree

theorem reason?_eq_some_iff (h : (e.exclusions.map (·.path)).Nodup) {reason : Reason} :
    e.reason? f = some reason ↔ ⟨f, reason⟩ ∈ e.exclusions := by
  rw [Explorer.reason?, Option.map_eq_some_iff]
  constructor
  · rintro ⟨x, hx, rfl⟩
    obtain rfl : x.path = f := by simpa using List.find?_some hx
    exact List.mem_of_find?_eq_some hx
  · intro hmem
    have hsome : (e.exclusions.find? (·.path == f)).isSome = true :=
      List.find?_isSome.2 ⟨_, hmem, by simp⟩
    obtain ⟨x, hx⟩ := Option.isSome_iff_exists.1 hsome
    have hpath : x.path = f := by simpa using List.find?_some hx
    obtain rfl := List.inj_on_of_nodup_map h (List.mem_of_find?_eq_some hx) hmem hpath
    exact ⟨_, hx, rfl⟩

theorem nodup_exclusions_exclude (h : e.tree.Shaped "") :
    (e.exclude.exclusions.map (·.path)).Nodup := by
  simp only [exclude, List.map_append, List.map_map]
  refine List.nodup_append'.2 ⟨?_, ?_, ?_⟩
  · simpa [Function.comp_def] using e.secrets.nodup
  · exact (List.filter_sublist.map _).nodup (Policy.nodup_exclusions h)
  · intro p hsecret hpolicy
    obtain ⟨x, hx, rfl⟩ := List.mem_map.1 hpolicy
    have hnot : x.path ∉ e.secrets := by simpa using (List.mem_filter.1 hx).2
    exact hnot (by simpa [Function.comp_def, TextSet.mem_def] using hsecret)

theorem exclude_follows (h : e.tree.Shaped "") : e.exclude.Follows e.config := by
  intro f reason
  rw [reason?_eq_some_iff (nodup_exclusions_exclude h), mem_exclusions_exclude]
  rfl

theorem Sound.perform_follows [Glob.Limit] (h : e.Sound) {edit : Edit}
    (hedit : edit.excludes = true) :
    (e.perform edit).Follows e.config := by
  cases edit with
  | load repository entries =>
    rw [perform, Explorer.load]
    split
    · exact exclude_follows (Tree.shaped_ofEntries entries)
    · exact exclude_follows (Tree.shaped_ofEntries entries)
  | flagSecrets paths => exact exclude_follows h.shaped
  | _ => cases hedit

theorem reset_follows (e : Explorer) (settings : Config) : e.reset.Follows settings := by
  intro f reason
  have hsecrets : f ∉ e.reset.secrets := TextSet.not_mem_empty
  have hreason : e.reset.reason? f = none := rfl
  have hpolicy : (Policy.ofConfig settings).exclusions e.reset.tree = [] := rfl
  simp [hsecrets, hreason, hpolicy]

theorem Follows.perform [Glob.Limit] {settings : Config} (h : e.Follows settings) {edit : Edit}
    (hedit : edit.excludes = false) : (e.perform edit).Follows settings := by
  cases hlisting : edit.changesListing with
  | false =>
    have hsame := sameListing_perform e hlisting
    intro f reason
    rw [hsame.reason?, hsame.secrets, hsame.tree]
    exact h f reason
  | true =>
    cases edit with
    | load repository entries => cases hedit
    | reset => exact reset_follows e settings
    | flagSecrets paths => cases hedit
    | _ => cases hlisting

theorem follows_run [Glob.Limit] {config : Config} {edits : List Edit} {settings : Config}
    (h : LastSettings config edits settings) : ((ofConfig config).run edits).Follows settings := by
  obtain ⟨before, edit, after, rfl, hedit, hafter, rfl⟩ := h
  rw [run_append]
  have hfollows := (coherent_run config before).perform_follows hedit
  exact run_invariant (e := ((ofConfig config).run before).perform edit)
    (P := (·.Follows ((ofConfig config).run before).config)) hfollows hafter
    fun _ _ h hlater => h.perform hlater

theorem Follows.secret_iff {settings : Config} (h : e.Follows settings) :
    e.reason? f = some .secret ↔ f ∈ e.secrets := by
  rw [h f .secret, and_iff_left rfl]
  exact or_iff_left fun hpolicy => Policy.not_mem_exclusions_secret f hpolicy.2

theorem exists_follows_run [Glob.Limit] (config : Config) (edits : List Edit) :
    ∃ settings, ((ofConfig config).run edits).Follows settings := by
  refine reachable_invariant (P := fun e => ∃ settings, e.Follows settings)
    ⟨config, reset_follows (ofConfig config) config⟩ ?_ edits
  rintro e edit hcoherent ⟨settings, h⟩
  cases hedit : edit.excludes with
  | false => exact ⟨settings, h.perform hedit⟩
  | true => exact ⟨e.config, hcoherent.perform_follows hedit⟩

theorem tree_perform_of_ne_load [Glob.Limit] (h : e.tree = .nil) {edit : Edit}
    (hedit : ∀ repository entries, edit ≠ .load repository entries) :
    (e.perform edit).tree = .nil := by
  cases hlisting : edit.changesListing with
  | false => exact (sameListing_perform e hlisting).tree.trans h
  | true =>
    cases edit with
    | load repository entries => exact absurd rfl (hedit repository entries)
    | reset => rfl
    | flagSecrets paths => exact h
    | _ => cases hlisting

def Unloaded (edits : List Edit) : Prop :=
  ∃ before after, (edits = after ∨ edits = before ++ .reset :: after) ∧
    ∀ repository entries, Edit.load repository entries ∉ after

theorem tree_run_of_unloaded [Glob.Limit] {config : Config} {edits : List Edit}
    (h : Unloaded edits) :
    ((ofConfig config).run edits).tree = .nil := by
  obtain ⟨before, after, hedits, hafter⟩ := h
  have hnil (e : Explorer) (he : e.tree = .nil) : (e.run after).tree = .nil :=
    run_invariant (P := (·.tree = .nil))
      (A := fun edit => ∀ repository entries, edit ≠ .load repository entries) he
      (fun edit hedit repository entries heq => hafter repository entries (heq ▸ hedit))
      fun _ _ h hedit => tree_perform_of_ne_load h hedit
  rcases hedits with rfl | rfl
  · exact hnil _ rfl
  · rw [run_append]
    exact hnil (((ofConfig config).run before).perform .reset) rfl

/-- The session bars each file for a reason that the edits leading to it give: as a secret, or else
for what the policy last asked has against the file in the tree as it is now. -/
structure Accounted [Glob.Limit] (config : Config) (edits : List Edit) (e : Explorer) : Prop where
  secret_iff : ∀ f, e.reason? f = some .secret ↔ f ∈ e.tree.filePaths ∧ FlaggedBy config edits f
  otherwise : ∀ settings, LastSettings config edits settings →
    ∀ f, e.reason? f ≠ some .secret → ∀ reason,
      e.reason? f = some reason ↔ ⟨f, reason⟩ ∈ (Policy.ofConfig settings).exclusions e.tree
  of_not_file : ∀ f, f ∉ e.tree.filePaths → e.reason? f = none
  of_unloaded : Unloaded edits → ∀ f, e.reason? f = none

theorem accounted_run [Glob.Limit] (config : Config) (edits : List Edit) :
    Accounted config edits ((ofConfig config).run edits) := by
  have h := coherent_run config edits
  have hanchored := anchored_run config edits
  obtain ⟨settings, hfollows⟩ := exists_follows_run config edits
  have hnone (f : String) (hf : f ∉ ((ofConfig config).run edits).tree.filePaths) :
      ((ofConfig config).run edits).reason? f = none := by
    rw [Option.eq_none_iff_forall_ne_some]
    exact fun reason hreason => hf (hanchored.barred f (h.mem_barred_iff.2 ⟨reason, hreason⟩))
  exact {
    secret_iff := fun f => by
      rw [hfollows.secret_iff, ← mem_secrets_run_iff]
      exact ⟨fun hf => ⟨hanchored.secrets f hf, hf⟩, fun hf => hf.2⟩
    otherwise := fun settings hsettings f hsecret reason => by
      rw [Ne, hfollows.secret_iff] at hsecret
      simpa [hsecret] using follows_run hsettings f reason
    of_not_file := hnone
    of_unloaded := fun hunloaded f => hnone f <| by
      rw [tree_run_of_unloaded hunloaded]
      exact List.not_mem_nil }

theorem accounted_run_refreshed :
    let repository : Repository := ⟨"o", "r", none⟩
    let es : List Entry := [⟨"a/key.md", .file, {}⟩, ⟨"a/logo.png", .file, {}⟩]
    let edits : List Edit := [.load repository es, .flagSecrets [".\\a\\key.md", "a"],
      .load repository es.reverse, .setConfig { barBinary := false }]
    let e := (ofConfig {}).run edits
    FlaggedBy {} edits "a/key.md" ∧ e.reason? "a/key.md" = some .secret ∧
      ∃ settings, LastSettings {} edits settings ∧ e.reason? "a/logo.png" ≠ some .secret ∧
        ⟨"a/logo.png", .binary⟩ ∈ (Policy.ofConfig settings).exclusions e.tree ∧
        e.reason? "a/logo.png" = some .binary := by
  intro repository es edits e
  have haccounted : Accounted {} edits e := accounted_run {} edits
  have hflagged : FlaggedBy {} edits "a/key.md" :=
    ⟨[_], _, [_, _], rfl, ⟨by decide +kernel, by decide +kernel⟩, by decide +kernel⟩
  have hlast : LastSettings {} edits ((ofConfig {}).run (edits.take 2)).config :=
    ⟨[_, _], _, [_], rfl, rfl, by decide, rfl⟩
  have hsecret : e.reason? "a/logo.png" ≠ some .secret := by decide +kernel
  have hpolicy : ⟨"a/logo.png", .binary⟩ ∈
      (Policy.ofConfig ((ofConfig {}).run (edits.take 2)).config).exclusions e.tree := by
    decide +kernel
  have hkey : e.reason? "a/key.md" = some .secret :=
    (haccounted.secret_iff _).2 ⟨by decide +kernel, hflagged⟩
  exact ⟨hflagged, hkey, _, hlast, hsecret, hpolicy,
    (haccounted.otherwise _ hlast _ hsecret _).2 hpolicy⟩

end Explorer

end TreeSelection
