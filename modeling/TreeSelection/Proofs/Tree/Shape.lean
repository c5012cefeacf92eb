import Mathlib.Data.List.Nodup
import TreeSelection.Proofs.Path
import TreeSelection.Tree.Basic

namespace TreeSelection

def Node.kind (n : Node) : Kind := if n.isDir then .dir else .file

theorem Node.isDir_eq_true_iff {n : Node} : n.isDir = true ↔ n.kind = .dir := by
  cases n <;> simp [Node.isDir, Node.kind]

structure Node.Before (m n : Node) : Prop where
  dirs_first : n.isDir → m.isDir
  name_lt : m.isDir = n.isDir → m.label.name < n.label.name
  name_ne : m.label.name ≠ n.label.name

structure Label.IsIn (above : String) (l : Label) : Prop where
  isName : Path.IsName l.name
  path_eq : l.path = above ++ l.name

namespace Tree

def allNodes : Tree → List Node
  | nil => []
  | file l rest => .file l :: rest.allNodes
  | dir l children rest => .dir l children :: (children.allNodes ++ rest.allNodes)

def paths (t : Tree) : List String := t.allNodes.map (·.label.path)

theorem allNodes_eq_flatMap (t : Tree) :
    t.allNodes = t.nodes.flatMap fun n => n :: n.children.allNodes := by
  induction t with
  | nil => rfl
  | file l rest ih => simp [allNodes, nodes, Node.children, ih]
  | dir l children rest _ ih => simp [allNodes, nodes, Node.children, ih]

theorem mem_allNodes {t : Tree} {n : Node} :
    n ∈ t.allNodes ↔ ∃ m ∈ t.nodes, n = m ∨ n ∈ m.children.allNodes := by
  simp [allNodes_eq_flatMap t]

theorem mem_allNodes_of_mem_children {t : Tree} {d n : Node} (hd : d ∈ t.allNodes)
    (hn : n ∈ d.children.allNodes) : n ∈ t.allNodes := by
  induction t with
  | nil => cases hd
  | file l rest ih =>
    rcases List.mem_cons.1 hd with rfl | hd
    · cases hn
    · exact List.mem_cons_of_mem _ (ih hd)
  | dir l children rest ihc ihr =>
    refine List.mem_cons_of_mem _ (List.mem_append.2 ?_)
    rcases List.mem_cons.1 hd with rfl | hd
    · exact .inl hn
    · exact (List.mem_append.1 hd).imp ihc ihr

theorem mem_files {t : Tree} {l : Label} : l ∈ t.files ↔ .file l ∈ t.allNodes := by
  induction t with
  | nil => simp [files, allNodes]
  | file l' rest ih => simp [files, allNodes, ih]
  | dir l' children rest ihc ihr => simp [files, allNodes, ihc, ihr]

inductive Shaped : String → Tree → Prop
  | level {above : String} {t : Tree} (named : ∀ n ∈ t.nodes, n.label.IsIn above)
      (ordered : t.nodes.Pairwise Node.Before)
      (below : ∀ n ∈ t.nodes, Shaped (n.label.path ++ "/") n.children) : Shaped above t

theorem Shaped.named (h : Shaped above t) : ∀ n ∈ t.nodes, n.label.IsIn above := by
  cases h with
  | level named => exact named

theorem shaped_nil (above : String) : Shaped above .nil :=
  .level (by simp [nodes]) (by simp [nodes]) (by simp [nodes])

theorem Shaped.path_eq {above : String} {t : Tree} (h : Shaped above t) {m n : Node}
    (hm : m ∈ t.nodes) (hn : n ∈ m :: m.children.allNodes) :
    ∃ ss, (∀ s ∈ ss, Path.IsName s) ∧ n.label.path = above ++ Path.join (m.label.name :: ss) := by
  induction h generalizing m n with
  | @level above t named ordered below ih =>
    rcases List.mem_cons.1 hn with rfl | hn
    · exact ⟨[], by simp, by simpa using (named n hm).path_eq⟩
    · rw [allNodes_eq_flatMap, List.mem_flatMap] at hn
      obtain ⟨k, hk, hn⟩ := hn
      obtain ⟨ss, hss, hpath⟩ := ih m hm hk hn
      have hname := ((below m hm).named k hk).isName
      refine ⟨k.label.name :: ss, by simpa using ⟨hname, hss⟩, ?_⟩
      rw [hpath, (named m hm).path_eq, Path.join_cons_cons]
      simp only [String.append_assoc]

theorem Shaped.normalize_path {t : Tree} (h : Shaped "" t) {n : Node} (hn : n ∈ t.allNodes) :
    Path.normalize n.label.path = some n.label.path := by
  obtain ⟨m, hm, hn⟩ := mem_allNodes.1 hn
  obtain ⟨ss, hss, hpath⟩ := h.path_eq hm (List.mem_cons.2 hn)
  have hnames : ∀ s ∈ m.label.name :: ss, Path.IsName s := by
    simpa using ⟨(h.named m hm).isName, hss⟩
  rw [hpath, String.empty_append]
  exact Path.normalize_join (by simp) hnames

theorem Shaped.path_ne {above : String} {t : Tree} (h : Shaped above t) {m n m' n' : Node}
    (hm : m ∈ t.nodes) (hn : n ∈ t.nodes) (hne : m.label.name ≠ n.label.name)
    (hm' : m' ∈ m :: m.children.allNodes) (hn' : n' ∈ n :: n.children.allNodes) :
    m'.label.path ≠ n'.label.path := by
  obtain ⟨ss, hss, hms⟩ := h.path_eq hm hm'
  obtain ⟨ts, hts, hnt⟩ := h.path_eq hn hn'
  intro heq
  rw [hms, hnt, String.append_right_inj] at heq
  have hcons := Path.join_injective (by simp) (by simpa using ⟨(h.named m hm).isName, hss⟩)
    (by simp) (by simpa using ⟨(h.named n hn).isName, hts⟩) heq
  exact hne (List.cons.inj hcons).1

theorem Shaped.nodup_paths {above : String} {t : Tree} (h : Shaped above t) : t.paths.Nodup := by
  induction h with
  | @level above t named ordered below ih =>
    have hpaths : t.paths =
        t.nodes.flatMap fun m => (m :: m.children.allNodes).map (·.label.path) := by
      rw [paths, allNodes_eq_flatMap, List.map_flatMap]
    rw [hpaths, List.nodup_flatMap]
    constructor
    · intro m hm
      rw [List.map_cons, List.nodup_cons]
      refine ⟨fun hmem => ?_, ih m hm⟩
      obtain ⟨n, hn, heq⟩ := List.mem_map.1 hmem
      rw [allNodes_eq_flatMap, List.mem_flatMap] at hn
      obtain ⟨k, hk, hn⟩ := hn
      obtain ⟨ss, -, hpath⟩ := (below m hm).path_eq hk hn
      have hlen := congrArg String.length (hpath.symm.trans heq)
      simp only [String.length_append] at hlen
      have hslash : "/".length = 1 := rfl
      omega
    · refine List.Pairwise.imp_of_mem (fun {m n} hm hn hmn => ?_) ordered
      show List.Disjoint _ _
      rw [List.disjoint_left]
      intro p hp hp'
      obtain ⟨m', hm', rfl⟩ := List.mem_map.1 hp
      obtain ⟨n', hn', heq⟩ := List.mem_map.1 hp'
      exact (Shaped.level named ordered below).path_ne hm hn hmn.name_ne hm' hn' heq.symm

theorem Shaped.nodup_allNodes {above : String} {t : Tree} (h : Shaped above t) :
    t.allNodes.Nodup := List.Nodup.of_map _ h.nodup_paths

end Tree

end TreeSelection
