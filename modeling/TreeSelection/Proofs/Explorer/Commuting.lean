import Mathlib.Data.List.Perm.Basic
import TreeSelection.Proofs.Explorer.Forgetting

/-!
Edits whose order is free. Turning over files and directories, flagging, and setting the patterns,
the filters and the search once each change different things, and what follows from them is made
anew each time.
-/

namespace TreeSelection

namespace TextSet

variable {s : TextSet} {p q : String}

theorem toggle_comm (s : TextSet) (p q : String) :
    (s.toggle p).toggle q = (s.toggle q).toggle p := by
  apply ext
  intro x
  simp only [mem_toggle]
  split <;> split <;> simp_all

theorem toggleFile_comm (s : TextSet) (p q : String) :
    ((s.toggleFile p).2.toggleFile q).2 = ((s.toggleFile q).2.toggleFile p).2 := by
  unfold toggleFile
  cases Path.normalize p <;> cases Path.normalize q
  case some.some p q => exact toggle_comm s p q
  all_goals rfl

theorem toggleFile_comm_of_isFile (s : TextSet) (p q : String) (isFile : String → Bool) :
    let turn (s : TextSet) (p : String) := if isFile p then (s.toggleFile p).2 else s
    turn (turn s p) q = turn (turn s q) p := by
  cases hp : isFile p <;> cases hq : isFile q <;> simp only [hp, hq]
  case true.true => exact toggleFile_comm s p q
  all_goals rfl

theorem union_left_comm (s t u : TextSet) : s.union (t.union u) = t.union (s.union u) := by
  apply ext
  intro x
  simp only [mem_union, or_left_comm]

end TextSet

namespace Edit

def isSetMasks : Edit → Bool
  | .setMasks _ _ => true
  | _ => false

def isSetFilters : Edit → Bool
  | .setFilters _ => true
  | _ => false

def isSearch : Edit → Bool
  | .search _ => true
  | _ => false

def isRepeatable : Edit → Bool
  | .toggleFile _ | .toggleCollapsed _ | .flagSecrets _ => true
  | _ => false

def isIndependent (a : Edit) : Bool :=
  a.isRepeatable || a.isSetMasks || a.isSetFilters || a.isSearch

def Competes (a b : Edit) : Prop :=
  (a.isSetMasks = true ∧ b.isSetMasks = true) ∨ (a.isSetFilters = true ∧ b.isSetFilters = true) ∨
    (a.isSearch = true ∧ b.isSearch = true)

/-- Any number of toggles and flags, and at most one of each kind of setting. -/
structure Independent (edits : List Edit) : Prop where
  kinds : ∀ a ∈ edits, a.isIndependent = true
  masks : edits.countP isSetMasks ≤ 1
  filters : edits.countP isSetFilters ≤ 1
  searches : edits.countP isSearch ≤ 1

theorem eq_of_countP_le_one {edits : List Edit} {p : Edit → Bool} (h : edits.countP p ≤ 1)
    {a b : Edit} (ha : a ∈ edits) (hb : b ∈ edits) (hpa : p a = true) (hpb : p b = true) :
    a = b := by
  rw [List.countP_eq_length_filter] at h
  have ha' : a ∈ edits.filter p := List.mem_filter.2 ⟨ha, hpa⟩
  have hb' : b ∈ edits.filter p := List.mem_filter.2 ⟨hb, hpb⟩
  obtain ⟨c, hc⟩ := List.length_eq_one_iff.1
    (Nat.le_antisymm h (List.length_pos_of_mem ha'))
  rw [hc, List.mem_singleton] at ha' hb'
  rw [ha', hb']

theorem Independent.eq_of_competes {edits : List Edit} (h : Independent edits) {a b : Edit}
    (ha : a ∈ edits) (hb : b ∈ edits) (hab : a.Competes b) : a = b := by
  rcases hab with ⟨hpa, hpb⟩ | ⟨hpa, hpb⟩ | ⟨hpa, hpb⟩
  · exact eq_of_countP_le_one h.masks ha hb hpa hpb
  · exact eq_of_countP_le_one h.filters ha hb hpa hpb
  · exact eq_of_countP_le_one h.searches ha hb hpa hpb

end Edit

namespace Explorer

def bare (e : Explorer) : Explorer := { e with cache := .empty, selection := {} }

def adjust [Glob.Limit] (e : Explorer) : Edit → Explorer
  | .toggleFile path =>
    { e with picked := if e.isFile path then (e.picked.toggleFile path).2 else e.picked }
  | .toggleCollapsed path => { e with collapsed := (e.collapsed.toggleFile path).2 }
  | .flagSecrets paths =>
    let found := (paths.filterMap Path.normalize).filter e.isFile
    { e with secrets := (TextSet.ofList found).union e.secrets }.exclude
  | .setMasks includes excludes =>
    { e with mask := .ofPatterns includes excludes, includes, excludes }
  | .setFilters on => { e with filtersOn := on }
  | .search text => { e with search := text }
  | _ => e

variable {e e' : Explorer} {a b : Edit}

theorem toggleCollapsed_eq (e : Explorer) (path : String) :
    e.toggleCollapsed path = { e with collapsed := (e.collapsed.toggleFile path).2 } := by
  unfold toggleCollapsed TextSet.toggleFile
  cases Path.normalize path <;> rfl

theorem bare_perform [Glob.Limit] (h : e.Coherent) (ha : a.isIndependent = true) :
    (e.perform a).bare = e.bare.adjust a := by
  cases a with
  | toggleFile path =>
    have hisFile : e.bare.isFile path = e.isFile path := rfl
    simp only [perform, toggleFile, adjust, hisFile]
    split <;> rfl
  | toggleCollapsed path => rw [perform, toggleCollapsed_eq]; rfl
  | flagSecrets paths => rfl
  | setMasks includes excludes => rw [perform, setMasks_of_faithful h.cache]; rfl
  | setFilters on => rfl
  | search text => rfl
  | _ => cases ha

theorem Coherent.resolve_eq [Glob.Limit] (h : e.Coherent) : e.resolve = e := by
  rw [resolve, ← h.selection]

theorem bare_run [Glob.Limit] (h : e.Coherent) {edits : List Edit}
    (hkinds : ∀ a ∈ edits, a.isIndependent = true) :
    (e.run edits).bare = edits.foldl adjust e.bare := by
  induction edits generalizing e with
  | nil => rfl
  | cons a edits ih =>
    obtain ⟨ha, hrest⟩ := List.forall_mem_cons.1 hkinds
    rw [List.foldl_cons, ← bare_perform h ha, ← ih (h.perform a) hrest]
    rfl

theorem adjust_comm [Glob.Limit] (e : Explorer) (h : ¬ a.Competes b) :
    (e.adjust a).adjust b = (e.adjust b).adjust a := by
  cases a with
  | toggleFile p =>
    cases b with
    | toggleFile q =>
      have hpicked := TextSet.toggleFile_comm_of_isFile e.picked p q e.isFile
      exact congrArg (fun picked => { e with picked }) hpicked
    | _ => rfl
  | toggleCollapsed p =>
    cases b with
    | toggleCollapsed q =>
      have hcollapsed := TextSet.toggleFile_comm e.collapsed p q
      exact congrArg (fun collapsed => { e with collapsed }) hcollapsed
    | _ => rfl
  | flagSecrets ps =>
    cases b with
    | flagSecrets qs =>
      let found (ps : List String) := TextSet.ofList ((ps.filterMap Path.normalize).filter e.isFile)
      have hsecrets := TextSet.union_left_comm (found qs) (found ps) e.secrets
      exact congrArg (fun secrets => { e with secrets }.exclude) hsecrets
    | _ => rfl
  | setMasks includes excludes =>
    cases b with
    | setMasks _ _ => exact absurd (.inl ⟨rfl, rfl⟩) h
    | _ => rfl
  | setFilters on =>
    cases b with
    | setFilters _ => exact absurd (.inr (.inl ⟨rfl, rfl⟩)) h
    | _ => rfl
  | search text =>
    cases b with
    | search _ => exact absurd (.inr (.inr ⟨rfl, rfl⟩)) h
    | _ => rfl
  | _ => cases b <;> rfl

theorem bare_run_perm [Glob.Limit] (h : e.Coherent) {edits edits' : List Edit}
    (hedits : Edit.Independent edits) (hperm : edits.Perm edits') :
    (e.run edits).bare = (e.run edits').bare := by
  rw [bare_run h hedits.kinds,
    bare_run h fun a ha => hedits.kinds a (hperm.mem_iff.2 ha)]
  refine hperm.foldl_eq' (fun a ha b hb e => ?_) e.bare
  by_cases hab : a.Competes b
  · rw [hedits.eq_of_competes ha hb hab]
  · exact adjust_comm e hab

theorem Coherent.alike_of_bare_eq [Glob.Limit] (h : e.Coherent) (h' : e'.Coherent)
    (hbare : e.bare = e'.bare) : e.Alike e' where
  left := h
  right := h'
  eq_withCache := by
    have hresolve {e : Explorer} (h : e.Coherent) :
        e = (e.bare.withCache e.cache).resolve := by
      conv_lhs => rw [← h.resolve_eq]
      rfl
    calc e' = (e'.bare.withCache e'.cache).resolve := hresolve h'
      _ = (e.bare.withCache e'.cache).resolve := by rw [hbare]
      _ = e.resolve.withCache e'.cache := rfl
      _ = e.withCache e'.cache := by rw [h.resolve_eq]

/-- Independent edits lead to the same session in any order. -/
theorem indistinguishable_run_of_perm [Glob.Limit] (config : Config) (before : List Edit)
    {edits edits' : List Edit} (hedits : Edit.Independent edits) (hperm : edits.Perm edits') :
    let e := (ofConfig config).run before
    (e.run edits).Indistinguishable (e.run edits') := by
  intro e
  have h : e.Coherent := coherent_run config before
  have hbare := bare_run_perm h hedits hperm
  exact ((h.run edits).alike_of_bare_eq (h.run edits') hbare).indistinguishable

theorem indistinguishable_run_of_perm_respelled :
    let entries : List Entry := [⟨"a/b.md", .file, {}⟩, ⟨"a/key.pem", .file, {}⟩, ⟨"c", .file, {}⟩]
    let before : List Edit := [.load ⟨"o", "r", none⟩ entries, .setConfig { barBinary := false }]
    let edits : List Edit := [.toggleFile "a/b.md", .flagSecrets ["./a/key.pem", "x"],
      .setMasks ["a/**"] ["c"], .toggleFile "a\\b.md", .toggleCollapsed "a/", .toggleFile "c",
      .flagSecrets ["a/b.md"], .search "B", .setFilters false]
    let e := (ofConfig {}).run before
    Edit.Independent edits ∧ edits.Perm edits.reverse ∧
      (e.run edits).Indistinguishable (e.run edits.reverse) := by
  intro entries before edits e
  have hedits : Edit.Independent edits := by
    constructor <;> decide +kernel
  have hperm : edits.Perm edits.reverse := (List.reverse_perm edits).symm
  exact ⟨hedits, hperm, indistinguishable_run_of_perm {} before hedits hperm⟩

end Explorer

end TreeSelection
