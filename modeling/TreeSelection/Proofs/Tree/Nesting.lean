import TreeSelection.Proofs.Tree.Below
import TreeSelection.Proofs.Tree.Declared

namespace TreeSelection

theorem Path.IsName.count_slash {s : String} (h : IsName s) : s.toList.count '/' = 0 :=
  List.count_eq_zero.2 h.slash_not_mem

namespace Node

structure InOrder (ns : List Node) : Prop where
  nodup_names : (ns.map (·.label.name)).Nodup
  dirs_first : ns = ns.filter (·.isDir) ++ ns.filter (!·.isDir)
  sorted_dirs : ((ns.filter (·.isDir)).map (·.label.name)).Pairwise (· < ·)
  sorted_files : ((ns.filter (!·.isDir)).map (·.label.name)).Pairwise (· < ·)

theorem eq_dirs_append_files {ns : List Node} (h : ns.Pairwise Before) :
    ns = ns.filter (·.isDir) ++ ns.filter (!·.isDir) := by
  induction ns with
  | nil => rfl
  | cons n ns ih =>
    obtain ⟨hn, hns⟩ := List.pairwise_cons.1 h
    cases hdir : n.isDir with
    | true => simpa [hdir] using ih hns
    | false =>
      -- behind a file there is no directory
      have hfiles : ∀ m ∈ ns, m.isDir = false := fun m hm => by
        simpa [hdir] using (hn m hm).dirs_first
      have hnone : ns.filter (·.isDir) = [] := by simpa [List.filter_eq_nil_iff] using hfiles
      have hall : ns.filter (!·.isDir) = ns := by simpa [List.filter_eq_self] using hfiles
      simp [hdir, hnone, hall]

theorem sorted_names_of_kind {ns : List Node} (h : ns.Pairwise Before) {p : Node → Bool}
    (hp : ∀ m n, p m = true → p n = true → m.isDir = n.isDir) :
    ((ns.filter p).map (·.label.name)).Pairwise (· < ·) := by
  rw [List.pairwise_map]
  refine (h.filter p).imp_of_mem fun {m n} hm hn hmn => hmn.name_lt ?_
  exact hp m n (List.mem_filter.1 hm).2 (List.mem_filter.1 hn).2

theorem inOrder_of_pairwise {ns : List Node} (h : ns.Pairwise Before) : InOrder ns where
  nodup_names := List.pairwise_map.2 (h.imp fun hmn => hmn.name_ne)
  dirs_first := eq_dirs_append_files h
  sorted_dirs := sorted_names_of_kind h fun m n hm hn => hm.trans hn.symm
  sorted_files := sorted_names_of_kind h fun m n hm hn => by simp_all

end Node

namespace Tree

def nodesAt : Nat → Tree → List Node
  | 0, t => t.nodes
  | depth + 1, t => t.nodes.flatMap fun n => n.children.nodesAt depth

variable {above : String} {t : Tree}

theorem Shaped.isIn_of_mem_children (h : Shaped above t) {d n : Node} (hd : d ∈ t.allNodes)
    (hn : n ∈ d.children.nodes) : n.label.IsIn (d.label.path ++ "/") :=
  (h.children_of_mem_allNodes hd).named n hn

theorem Shaped.isName (h : Shaped above t) {n : Node} (hn : n ∈ t.allNodes) :
    Path.IsName n.label.name := by
  induction h with
  | level named ordered below ih =>
    obtain ⟨m, hm, rfl | hn⟩ := mem_allNodes.1 hn
    · exact (named n hm).isName
    · exact ih m hm hn

theorem Shaped.exists_nodesAt (h : Shaped above t) {n : Node} (hn : n ∈ t.allNodes) :
    ∃ depth, n ∈ t.nodesAt depth := by
  induction h with
  | level named ordered below ih =>
    obtain ⟨m, hm, rfl | hn⟩ := mem_allNodes.1 hn
    · exact ⟨0, hm⟩
    · obtain ⟨depth, hdepth⟩ := ih m hm hn
      exact ⟨depth + 1, List.mem_flatMap.2 ⟨m, hm, hdepth⟩⟩

theorem mem_allNodes_of_mem_nodesAt {depth : Nat} {n : Node} (hn : n ∈ t.nodesAt depth) :
    n ∈ t.allNodes := by
  induction depth generalizing t with
  | zero => exact mem_allNodes.2 ⟨n, hn, .inl rfl⟩
  | succ depth ih =>
    obtain ⟨m, hm, hn⟩ := List.mem_flatMap.1 hn
    exact mem_allNodes.2 ⟨m, hm, .inr (ih hn)⟩

theorem Shaped.count_slash (h : Shaped above t) {depth : Nat} {n : Node}
    (hn : n ∈ t.nodesAt depth) :
    n.label.path.toList.count '/' = above.toList.count '/' + depth := by
  induction depth generalizing above t with
  | zero =>
    have hin := h.named n hn
    simp [hin.path_eq, hin.isName.count_slash]
  | succ depth ih =>
    obtain ⟨m, hm, hn⟩ := List.mem_flatMap.1 hn
    have hin := h.named m hm
    have habove : (m.label.path ++ "/").toList.count '/' = above.toList.count '/' + 1 := by
      simp [hin.path_eq, hin.isName.count_slash]
    have hchildren := h.children_of_mem_allNodes (mem_allNodes.2 ⟨m, hm, .inl rfl⟩)
    rw [ih hchildren hn, habove, Nat.add_assoc, Nat.add_comm 1]

theorem Shaped.mem_nodesAt_iff (h : Shaped "" t) {depth : Nat} {n : Node} :
    n ∈ t.nodesAt depth ↔ n ∈ t.allNodes ∧ n.label.path.toList.count '/' = depth := by
  have hcount {depth : Nat} (hn : n ∈ t.nodesAt depth) :
      n.label.path.toList.count '/' = depth := by simpa using h.count_slash hn
  constructor
  · exact fun hn => ⟨mem_allNodes_of_mem_nodesAt hn, hcount hn⟩
  · rintro ⟨hn, rfl⟩
    obtain ⟨depth, hdepth⟩ := h.exists_nodesAt hn
    rwa [hcount hdepth]

/-- The path of a node is that of the directory above it and its name, which makes it canonical and
tells the depth of the node; and every level is in order. -/
structure Nested (t : Tree) : Prop where
  isName : ∀ n ∈ t.allNodes, Path.IsName n.label.name
  path_root : ∀ n ∈ t.nodes, n.label.path = n.label.name
  path_child : ∀ d ∈ t.allNodes, ∀ n ∈ d.children.nodes,
    n.label.path = d.label.path ++ "/" ++ n.label.name
  mem_nodesAt_iff : ∀ depth n, n ∈ t.nodesAt depth ↔
    n ∈ t.allNodes ∧ n.label.path.toList.count '/' = depth
  normalize_path : ∀ n ∈ t.allNodes, Path.normalize n.label.path = some n.label.path
  inOrder_roots : Node.InOrder t.nodes
  inOrder_children : ∀ d ∈ t.allNodes, Node.InOrder d.children.nodes

theorem nested_ofEntries (es : List Entry) : (ofEntries es).Nested := by
  have h := shaped_ofEntries es
  exact {
    isName := fun n hn => h.isName hn
    path_root := fun n hn => by simpa using (h.named n hn).path_eq
    path_child := fun d hd n hn => (h.isIn_of_mem_children hd hn).path_eq
    mem_nodesAt_iff := fun depth n => h.mem_nodesAt_iff
    normalize_path := fun n hn => h.normalize_path hn
    inOrder_roots := Node.inOrder_of_pairwise h.ordered
    inOrder_children := fun d hd =>
      Node.inOrder_of_pairwise (h.children_of_mem_allNodes hd).ordered }

end Tree

end TreeSelection
