import Mathlib.Algebra.Ring.Parity
import TreeSelection.Proofs.Explorer.Commuting
import TreeSelection.Proofs.Explorer.Toggling

namespace TreeSelection

theorem TextSet.mem_toggle_iff_xor {s : TextSet} {p q : String} :
    q ∈ s.toggle p ↔ Xor (q ∈ s) (q = p) := by
  rw [mem_toggle, xor_iff_iff_not]
  split
  · next h => simp [h]
  · next h => simp [h]

namespace Explorer

def calls (paths : List String) (f : String) : Nat := paths.countP (Path.normalize · = some f)

def turnOver [Glob.Limit] (e : Explorer) (paths : List String) : Explorer :=
  e.run (paths.map .toggleFile)

variable {e : Explorer} {f path : String} {paths : List String}

theorem Sound.toggleFile_of_not_mem [Glob.Limit] (h : e.Sound)
    (hpath : ∀ f ∈ e.tree.filePaths, Path.normalize path ≠ some f) :
    e.toggleFile path = (false, e) := by
  rw [toggleFile, if_neg]
  intro hfile
  obtain ⟨f, hf, hnormalize⟩ := h.isFile_iff.1 hfile
  exact hpath f hf hnormalize

theorem Sound.toggleFile_of_mem [Glob.Limit] (h : e.Sound) (hf : f ∈ e.tree.filePaths)
    (hpath : Path.normalize path = some f) :
    e.toggleFile path = (!e.picked.contains f, e.pick (e.picked.toggle f)) := by
  rw [toggleFile, if_pos (h.isFile_iff.2 ⟨f, hf, hpath⟩)]
  simp only [TextSet.toggleFile, hpath]
  rfl

theorem Sound.mem_picked_toggleFile [Glob.Limit] (h : e.Sound) (hf : f ∈ e.tree.filePaths)
    (path : String) :
    f ∈ (e.toggleFile path).2.picked ↔ Xor (f ∈ e.picked) (Path.normalize path = some f) := by
  by_cases hfile : ∃ g ∈ e.tree.filePaths, Path.normalize path = some g
  · obtain ⟨g, hg, hpath⟩ := hfile
    rw [h.toggleFile_of_mem hg hpath, hpath, Option.some.injEq, eq_comm (a := g)]
    exact TextSet.mem_toggle_iff_xor
  · simp only [not_exists, not_and] at hfile
    rw [h.toggleFile_of_not_mem hfile]
    simp [xor_iff_iff_not, hfile f hf]

theorem frame_toggleFile (e : Explorer) (path : String) :
    ∃ picked selection, (e.toggleFile path).2 = { e with picked, selection } := by
  unfold toggleFile
  split
  · exact ⟨_, _, rfl⟩
  · exact ⟨_, _, rfl⟩

theorem turnOver_cons [Glob.Limit] (e : Explorer) (path : String) (paths : List String) :
    e.turnOver (path :: paths) = (e.toggleFile path).2.turnOver paths := rfl

theorem frame_turnOver [Glob.Limit] (e : Explorer) (paths : List String) :
    ∃ picked selection, e.turnOver paths = { e with picked, selection } := by
  induction paths generalizing e with
  | nil => exact ⟨_, _, rfl⟩
  | cons path paths ih =>
    obtain ⟨_, _, hfirst⟩ := e.frame_toggleFile path
    obtain ⟨picked, selection, hrest⟩ := ih (e.toggleFile path).2
    rw [turnOver_cons, hrest, hfirst]
    exact ⟨picked, selection, rfl⟩

theorem tree_turnOver [Glob.Limit] (e : Explorer) (paths : List String) :
    (e.turnOver paths).tree = e.tree := by
  obtain ⟨_, _, heq⟩ := e.frame_turnOver paths
  rw [heq]

theorem calls_cons (path : String) (paths : List String) (f : String) :
    calls (path :: paths) f = calls paths f + if Path.normalize path = some f then 1 else 0 := by
  simp only [calls, List.countP_cons, decide_eq_true_eq]

theorem Coherent.mem_picked_turnOver [Glob.Limit] (h : e.Coherent) (hf : f ∈ e.tree.filePaths)
    (paths : List String) :
    f ∈ (e.turnOver paths).picked ↔ Xor (f ∈ e.picked) (Odd (calls paths f)) := by
  induction paths generalizing e with
  | nil => simp [xor_iff_iff_not, turnOver, Explorer.run, calls]
  | cons path paths ih =>
    have htree : (e.toggleFile path).2.tree = e.tree := e.tree_turnOver [path]
    rw [turnOver_cons, ih (h.toggleFile path) (htree ▸ hf), h.mem_picked_toggleFile hf, calls_cons]
    by_cases hpath : Path.normalize path = some f
    · simp only [hpath, if_true, Nat.odd_add_one, xor_iff_iff_not, not_true, iff_false, not_not]
      exact not_iff_not
    · simp [xor_iff_iff_not, hpath]

theorem Coherent.turnOver_of_even [Glob.Limit] (h : e.Coherent) (hanchored : e.Anchored)
    (heven : ∀ f ∈ e.tree.filePaths, Even (calls paths f)) : e.turnOver paths = e := by
  have h' : (e.turnOver paths).Coherent := h.run _
  have hanchored' : (e.turnOver paths).Anchored := hanchored.run h _
  have hpicked : (e.turnOver paths).picked = e.picked := by
    refine TextSet.ext fun f => ?_
    by_cases hf : f ∈ e.tree.filePaths
    · simp [xor_iff_iff_not, h.mem_picked_turnOver hf, Nat.not_odd_iff_even.2 (heven f hf)]
    · have hout : f ∉ (e.turnOver paths).tree.filePaths := by rwa [e.tree_turnOver]
      exact iff_of_false (mt (hanchored'.picked f) hout) (mt (hanchored.picked f) hf)
  obtain ⟨picked, selection, heq⟩ := e.frame_turnOver paths
  rw [heq] at hpicked h' ⊢
  obtain rfl : picked = e.picked := hpicked
  -- what is selected follows from all the rest, which is as it was
  rw [← h'.resolve_eq]
  exact h.resolve_eq

/-- One call: for anything but a file of the tree it does nothing, and for a file it tells if that is
picked now. -/
structure AnswersCall (e : Explorer) (path : String) : Prop where
  of_not_file : (∀ f ∈ e.tree.filePaths, Path.normalize path ≠ some f) →
    e.toggleFile path = (false, e)
  of_file : ∀ f ∈ e.tree.filePaths, Path.normalize path = some f →
    ((e.toggleFile path).1 = true ↔ f ∈ (e.toggleFile path).2.picked)

/-- A run of calls: only what is picked and what is selected changes, and how often a file is called
for tells if it is picked in the end. -/
structure CountsCalls (e : Explorer) (paths : List String) (e' : Explorer) : Prop where
  frame : e' = { e with picked := e'.picked, selection := e'.selection }
  mem_picked_iff : ∀ f ∈ e.tree.filePaths,
    (f ∈ e'.picked ↔ Xor (f ∈ e.picked) (Odd (calls paths f)))
  eq_of_even : (∀ f ∈ e.tree.filePaths, Even (calls paths f)) → e' = e

theorem Sound.answersCall [Glob.Limit] (h : e.Sound) (path : String) : e.AnswersCall path where
  of_not_file := h.toggleFile_of_not_mem
  of_file f hf hpath := by
    rw [h.toggleFile_of_mem hf hpath]
    show _ ↔ f ∈ e.picked.toggle f
    simp

/-- After any edits, files can be turned over in any number, order and spelling: each call counts for
its file alone, the next one is answered by what it does, and two for one file undo each other. -/
theorem toggleFile_run [Glob.Limit] (config : Config) (edits : List Edit) (paths : List String) :
    let e := (ofConfig config).run edits
    e.CountsCalls paths (e.turnOver paths) ∧
      (∀ path, (e.turnOver paths).AnswersCall path) ∧
      ∀ f ∈ e.tree.filePaths, ∀ p q, Path.normalize p = some f → Path.normalize q = some f →
        ((e.toggleFile p).2.toggleFile q).2 = e := by
  intro e
  have h : e.Coherent := coherent_run config edits
  have hanchored : e.Anchored := anchored_run config edits
  refine ⟨⟨?_, fun f hf => h.mem_picked_turnOver hf paths, h.turnOver_of_even hanchored⟩, ?_, ?_⟩
  · obtain ⟨_, _, heq⟩ := e.frame_turnOver paths
    rw [heq]
  · exact fun path => (h.run _).answersCall path
  · intro f hf p q hp hq
    have htwice : e.turnOver [p, q] = e := by
      refine h.turnOver_of_even hanchored fun g _ => ?_
      rw [calls_cons, calls_cons, hp, hq, Nat.add_assoc, calls, List.countP_nil, Nat.zero_add]
      exact Even.add_self _
    exact htwice

theorem toggleFile_run_respelled :
    let config : Config := { excludes := [] }
    let repository : Repository := ⟨"o", "r", none⟩
    let es : List Entry := [⟨"a/b.md", .file, {}⟩, ⟨"a/key.pem", .file, {}⟩, ⟨"c", .file, {}⟩]
    let edits : List Edit := [.load repository es, .toggleFile "c", .flagSecrets ["a/key.pem"]]
    let paths := ["a\\b.md", "a", "./c", "a//b.md", "../c", "c/", "/a/b.md", "x"]
    let e := (ofConfig config).run edits
    let e' := e.turnOver paths
    ("a/b.md" ∈ e'.picked ∧ "c" ∈ e'.picked ∧ "a/key.pem" ∉ e'.picked) ∧
      e'.toggleFile "a" = (false, e') ∧
      ((e'.toggleFile ".\\c").1 = true ↔ "c" ∈ (e'.toggleFile ".\\c").2.picked) ∧
      e.turnOver ["c", "a/b.md", "./a/b.md", "a", "c//"] = e ∧
      ((e.toggleFile "a\\b.md").2.toggleFile "./a/b.md").2 = e := by
  intro config repository es edits paths e e'
  have hcounts : e.CountsCalls paths e' := (toggleFile_run config edits paths).1
  have hanswers (path : String) : e'.AnswersCall path := (toggleFile_run config edits paths).2.1 path
  have hfiles : "a/b.md" ∈ e.tree.filePaths ∧ "c" ∈ e.tree.filePaths ∧
      "a/key.pem" ∈ e.tree.filePaths := by decide +kernel
  have hin : Xor ("a/b.md" ∈ e.picked) (Odd (calls paths "a/b.md")) ∧
      Xor ("c" ∈ e.picked) (Odd (calls paths "c")) := by decide +kernel
  have hout : ¬ Xor ("a/key.pem" ∈ e.picked) (Odd (calls paths "a/key.pem")) := by decide +kernel
  have hdirectory : ∀ f ∈ e'.tree.filePaths, Path.normalize "a" ≠ some f := by decide +kernel
  have hfile : "c" ∈ e'.tree.filePaths ∧ Path.normalize ".\\c" = some "c" := by decide +kernel
  have heven : ∀ f ∈ e.tree.filePaths,
      Even (calls ["c", "a/b.md", "./a/b.md", "a", "c//"] f) := by decide +kernel
  have hspelled : Path.normalize "a\\b.md" = some "a/b.md" ∧
      Path.normalize "./a/b.md" = some "a/b.md" := by decide +kernel
  have hall : e.turnOver ["c", "a/b.md", "./a/b.md", "a", "c//"] = e :=
    (toggleFile_run config edits _).1.eq_of_even heven
  have htwice : ((e.toggleFile "a\\b.md").2.toggleFile "./a/b.md").2 = e :=
    (toggleFile_run config edits []).2.2 "a/b.md" hfiles.1 _ _ hspelled.1 hspelled.2
  refine ⟨⟨?_, ?_, ?_⟩, ?_, ?_, hall, htwice⟩
  · exact (hcounts.mem_picked_iff _ hfiles.1).2 hin.1
  · exact (hcounts.mem_picked_iff _ hfiles.2.1).2 hin.2
  · exact mt (hcounts.mem_picked_iff _ hfiles.2.2).1 hout
  · exact (hanswers "a").of_not_file hdirectory
  · exact (hanswers ".\\c").of_file "c" hfile.1 hfile.2

end Explorer

end TreeSelection
