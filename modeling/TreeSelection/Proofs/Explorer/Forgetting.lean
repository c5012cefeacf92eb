import TreeSelection.Explorer.View
import TreeSelection.Proofs.Explorer.Coherence

/-!
What a session forgets. To load another repository is to do so in a session that was reset, and a
session that was reset is a new one with the same patterns; only the memory of compiled patterns is
not the same, and nothing shows it.
-/

namespace TreeSelection

def Config.withLast (c : Config) (last : Option String) : Config := { c with lastRepository := last }

namespace Explorer

structure LooksLike (e e' : Explorer) : Prop where
  config : e.config = e'.config
  repository : e.repository = e'.repository
  entries : e.entries = e'.entries
  tree : e.tree = e'.tree
  includes : e.includes = e'.includes
  excludes : e.excludes = e'.excludes
  filtersOn : e.filtersOn = e'.filtersOn
  picked : e.picked = e'.picked
  barred : e.barred = e'.barred
  reason? : ∀ path, e.reason? path = e'.reason? path
  isExcluded : ∀ path, e.isExcluded path = e'.isExcluded path
  collapsed : e.collapsed = e'.collapsed
  search : e.search = e'.search
  selection : e.selection = e'.selection
  rows : e.rows = e'.rows
  view : e.view = e'.view
  request? : ∀ format, e.request? format = e'.request? format
  answer : ∀ edit, e.answer edit = e'.answer edit
  warnings : ∀ edit, e.warnings edit = e'.warnings edit

/-- No edits bring out a difference. -/
def Indistinguishable [Glob.Limit] (e e' : Explorer) : Prop :=
  ∀ edits, (e.run edits).LooksLike (e'.run edits)

/-- The same patterns are in force, and the same settings but for the repository loaded last. -/
structure SameSettings (e e' : Explorer) : Prop where
  includes : e.includes = e'.includes
  excludes : e.excludes = e'.excludes
  filtersOn : e.filtersOn = e'.filtersOn
  config : e.config.withLast none = e'.config.withLast none

def withCache (e : Explorer) (cache : Glob.Cache) : Explorer := { e with cache }

structure Alike [Glob.Limit] (e e' : Explorer) : Prop where
  left : e.Coherent
  right : e'.Coherent
  eq_withCache : e' = e.withCache e'.cache

section

variable (e : Explorer) (cache : Glob.Cache)

theorem toggleFile_withCache (path : String) : (e.withCache cache).toggleFile path =
    ((e.toggleFile path).1, (e.toggleFile path).2.withCache cache) := by
  have hisFile : (e.withCache cache).isFile path = e.isFile path := rfl
  rw [toggleFile, toggleFile, hisFile]
  split <;> rfl

theorem toggleDirectory_withCache (path : String) : (e.withCache cache).toggleDirectory path =
    ((e.toggleDirectory path).1, (e.toggleDirectory path).2.withCache cache) := by
  have htree : (e.withCache cache).tree = e.tree := rfl
  rw [toggleDirectory, toggleDirectory, htree]
  split <;> rfl

theorem toggleCollapsed_withCache (path : String) :
    (e.withCache cache).toggleCollapsed path = (e.toggleCollapsed path).withCache cache := by
  rw [toggleCollapsed, toggleCollapsed]
  split <;> rfl

theorem load_withCache (repository : Repository) (entries : List Entry) :
    (e.withCache cache).load repository entries =
      (e.load repository entries).withCache cache := by
  have hrepository : (e.withCache cache).repository = e.repository := rfl
  simp only [load, hrepository]
  split <;> rfl

theorem answer_withCache (edit : Edit) : (e.withCache cache).answer edit = e.answer edit := by
  cases edit with
  | toggleFile path => rw [answer, toggleFile_withCache, answer]
  | toggleDirectory path => rw [answer, toggleDirectory_withCache, answer]
  | _ => rfl

theorem warnings_withCache (edit : Edit) : (e.withCache cache).warnings edit = e.warnings edit := by
  cases edit <;> rfl

end

variable {e e' : Explorer}

theorem setMasks_of_faithful [Glob.Limit] (h : e.cache.Faithful) (includes excludes : List String) :
    e.setMasks includes excludes =
      ({ e with
          mask := .ofPatterns includes excludes
          cache := (e.cache.mask includes excludes).2
          includes, excludes } : Explorer).resolve := by
  rw [← (h.mask includes excludes).1]
  rfl

theorem perform_withCache [Glob.Limit] (h : e.cache.Faithful) {cache : Glob.Cache}
    (hcache : cache.Faithful) (edit : Edit) : (e.withCache cache).perform edit =
      (e.perform edit).withCache ((e.withCache cache).perform edit).cache := by
  cases edit with
  | load repository entries =>
    simp only [perform, load_withCache]
    rfl
  | setMasks includes excludes =>
    have hwith : (e.withCache cache).cache.Faithful := hcache
    simp only [perform, setMasks_of_faithful h, setMasks_of_faithful hwith]
    rfl
  | toggleFile path =>
    simp only [perform, toggleFile_withCache]
    rfl
  | toggleDirectory path =>
    simp only [perform, toggleDirectory_withCache]
    rfl
  | toggleCollapsed path =>
    simp only [perform, toggleCollapsed_withCache]
    rfl
  | _ => rfl

theorem Alike.perform [Glob.Limit] (h : e.Alike e') (edit : Edit) :
    (e.perform edit).Alike (e'.perform edit) where
  left := h.left.perform edit
  right := h.right.perform edit
  eq_withCache := by
    have hperform := perform_withCache h.left.cache h.right.cache edit
    rwa [← h.eq_withCache] at hperform

theorem Alike.run [Glob.Limit] (h : e.Alike e') (edits : List Edit) :
    (e.run edits).Alike (e'.run edits) := by
  induction edits generalizing e e' with
  | nil => exact h
  | cons edit edits ih => exact ih (h.perform edit)

theorem Alike.looksLike [Glob.Limit] (h : e.Alike e') : e.LooksLike e' := by
  rw [h.eq_withCache]
  exact {
    config := rfl
    repository := rfl
    entries := rfl
    tree := rfl
    includes := rfl
    excludes := rfl
    filtersOn := rfl
    picked := rfl
    barred := rfl
    reason? := fun _ => rfl
    isExcluded := fun _ => rfl
    collapsed := rfl
    search := rfl
    selection := rfl
    rows := rfl
    view := rfl
    request? := fun _ => rfl
    answer := fun edit => (answer_withCache e _ edit).symm
    warnings := fun edit => (warnings_withCache e _ edit).symm }

theorem Alike.indistinguishable [Glob.Limit] (h : e.Alike e') : e.Indistinguishable e' :=
  fun edits => (h.run edits).looksLike

theorem Coherent.alike_reset [Glob.Limit] (h : e.Coherent) : e.reset.Alike
    ((ofConfig e.config).run [.setMasks e.includes e.excludes, .setFilters e.filtersOn]) where
  left := h.reset
  right := coherent_run _ _
  eq_withCache := by
    have hnew := setMasks_of_faithful (ofConfig_coherent e.config).cache e.includes e.excludes
    simp only [Explorer.run, List.foldl_cons, List.foldl_nil, Explorer.perform, hnew]
    rw [← h.mask]
    rfl

section

variable (repository : Repository) (entries : List Entry)

theorem load_reset (h : e.repository ≠ some repository) :
    e.reset.load repository entries = e.load repository entries := by
  have hreset : e.reset.repository ≠ some repository := nofun
  simp only [load, if_neg h, if_neg hreset]
  rfl

theorem load_withLast (last : Option String) :
    ({ e with config := e.config.withLast last } : Explorer).load repository entries =
      e.load repository entries := by
  simp only [load]
  split <;> rfl

theorem SameSettings.load_eq (hsame : e.SameSettings e') (hmask : e.mask = e'.mask)
    (hother : e.repository ≠ some repository) (hother' : e'.repository ≠ some repository) :
    e'.load repository entries = (e.load repository entries).withCache e'.cache := by
  have hreset : ({ e'.reset with config := e'.config.withLast none } : Explorer) =
      ({ e.reset with config := e.config.withLast none } : Explorer).withCache e'.cache := by
    simp only [reset, withCache, hsame.config, hsame.includes, hsame.excludes, hsame.filtersOn,
      hmask]
  calc e'.load repository entries
      = e'.reset.load repository entries := (load_reset repository entries hother').symm
    _ = ({ e'.reset with config := e'.config.withLast none } : Explorer).load repository entries :=
        (load_withLast repository entries none).symm
    _ = (({ e.reset with config := e.config.withLast none } : Explorer).load repository
          entries).withCache e'.cache := by rw [hreset, load_withCache]
    _ = (e.reset.load repository entries).withCache e'.cache :=
        congrArg (·.withCache e'.cache) (load_withLast repository entries none)
    _ = (e.load repository entries).withCache e'.cache := by rw [load_reset repository entries hother]

theorem SameSettings.alike_load [Glob.Limit] (hsame : e.SameSettings e') (h : e.Coherent)
    (h' : e'.Coherent)
    (hother : e.repository ≠ some repository) (hother' : e'.repository ≠ some repository) :
    (e.load repository entries).Alike (e'.load repository entries) where
  left := h.load repository entries
  right := h'.load repository entries
  eq_withCache := by
    have hmask : e.mask = e'.mask := by rw [h.mask, h'.mask, hsame.includes, hsame.excludes]
    rw [hsame.load_eq repository entries hmask hother hother']
    rfl

end

/-- Two sessions with the same settings that load another repository cannot be told apart after
that, and no session that was reset can be told from a new one. -/
theorem indistinguishable_load_and_reset [Glob.Limit] (config config' : Config)
    (edits edits' : List Edit) (repository : Repository) (entries : List Entry) :
    let e := (ofConfig config).run edits
    let e' := (ofConfig config').run edits'
    (e.SameSettings e' → e.repository ≠ some repository → e'.repository ≠ some repository →
      (e.load repository entries).Indistinguishable (e'.load repository entries)) ∧
    e.reset.Indistinguishable
      ((ofConfig e.config).run [.setMasks e.includes e.excludes, .setFilters e.filtersOn]) := by
  intro e e'
  have h : e.Coherent := coherent_run config edits
  have h' : e'.Coherent := coherent_run config' edits'
  refine ⟨fun hsame hother hother' => ?_, h.alike_reset.indistinguishable⟩
  exact (hsame.alike_load repository entries h h' hother hother').indistinguishable

theorem indistinguishable_load_picked :
    let repository : Repository := ⟨"o", "r", none⟩
    let other : Repository := ⟨"o", "r", some "dev"⟩
    let entries : List Entry := [⟨"a/b.md", .file, {}⟩, ⟨"a/key.pem", .file, {}⟩]
    let e := (ofConfig {}).run [.setMasks ["a/**"] ["*.lock"], .load other entries,
      .toggleFile "a/b.md", .flagSecrets ["a/key.pem"], .collapseAll, .search "md"]
    let e' := (ofConfig { lastRepository := some "x/y" }).run [.setMasks ["a/**"] ["*.lock"]]
    e.SameSettings e' ∧ e.repository ≠ some repository ∧ e'.repository ≠ some repository ∧
      (e.load repository entries).Indistinguishable (e'.load repository entries) := by
  intro repository other entries e e'
  have hsame : e.SameSettings e' := by
    constructor <;> decide +kernel
  have hother : e.repository ≠ some repository := by decide +kernel
  have hother' : e'.repository ≠ some repository := by decide +kernel
  have hload := (indistinguishable_load_and_reset {} _ _ _ repository entries).1 hsame hother hother'
  exact ⟨hsame, hother, hother', hload⟩

end Explorer

end TreeSelection
