import TreeSelection.Proofs.Tree.Shape

namespace TreeSelection

namespace Path

instance (above path : String) : Decidable (IsBelow above path) :=
  inferInstanceAs (Decidable (_ <+: _))

theorem isBelow_append (above path : String) : IsBelow above (above ++ "/" ++ path) := by
  simp [IsBelow]

@[simp] theorem isBelow_append_left {a above path : String} :
    IsBelow (a ++ above) (a ++ path) ↔ IsBelow above path := by
  simp [IsBelow]

theorem IsBelow.trans {a b c : String} (hab : IsBelow a b) (hbc : IsBelow b c) : IsBelow a c := by
  have hb : b.toList <+: (b ++ "/").toList := by simp
  exact (List.IsPrefix.trans hab hb).trans hbc

theorem not_isBelow_self (p : String) : ¬ IsBelow p p := by
  intro h
  have hlen := h.length_le
  rw [String.toList_append, List.length_append] at hlen
  exact absurd hlen (Nat.not_le_of_lt (Nat.lt_add_of_pos_right (by decide)))

end Path

namespace Tree

theorem files_eq_filter_allNodes (t : Tree) :
    t.files = (t.allNodes.filter (!·.isDir)).map (·.label) := by
  induction t with
  | nil => rfl
  | file l rest ih => simp [files, allNodes, Node.isDir, Node.label, ih]
  | dir l children rest ihc ihr => simp [files, allNodes, Node.isDir, ihc, ihr]

theorem dirs_eq_filter_allNodes (t : Tree) :
    t.dirs = (t.allNodes.filter (·.isDir)).map (·.label) := by
  induction t with
  | nil => rfl
  | file l rest ih => simp [dirs, allNodes, Node.isDir, ih]
  | dir l children rest ihc ihr => simp [dirs, allNodes, Node.isDir, Node.label, ihc, ihr]

theorem mem_dirs {t : Tree} {l : Label} :
    l ∈ t.dirs ↔ ∃ children, .dir l children ∈ t.allNodes := by
  rw [dirs_eq_filter_allNodes, List.mem_map]
  constructor
  · rintro ⟨n, hn, rfl⟩
    obtain ⟨hn, hdir⟩ := List.mem_filter.1 hn
    cases n with
    | file l => cases hdir
    | dir l children => exact ⟨children, hn⟩
  · rintro ⟨children, hn⟩
    exact ⟨.dir l children, List.mem_filter.2 ⟨hn, rfl⟩, rfl⟩

theorem mem_dirPaths_of_isDir {t : Tree} {d : Node} (hd : d ∈ t.allNodes) (hdir : d.isDir = true) :
    d.label.path ∈ t.dirPaths := by
  cases d with
  | file l => cases hdir
  | dir l children => exact List.mem_map_of_mem (mem_dirs.2 ⟨children, hd⟩)

section

variable {above : String} {l : Label} {children rest t : Tree}

theorem Shaped.of_file (h : Shaped above (.file l rest)) : Shaped above rest := by
  cases h with
  | level named ordered below =>
    simp only [nodes, List.forall_mem_cons] at named below
    exact .level named.2 (List.pairwise_cons.1 ordered).2 below.2

theorem Shaped.of_dir (h : Shaped above (.dir l children rest)) :
    Shaped (l.path ++ "/") children ∧ Shaped above rest := by
  cases h with
  | level named ordered below =>
    simp only [nodes, List.forall_mem_cons] at named below
    exact ⟨below.1, .level named.2 (List.pairwise_cons.1 ordered).2 below.2⟩

theorem Shaped.ordered (h : Shaped above t) : t.nodes.Pairwise Node.Before := by
  cases h with
  | level _ ordered => exact ordered

theorem Shaped.children_of_mem_allNodes (h : Shaped above t) {n : Node} (hn : n ∈ t.allNodes) :
    Shaped (n.label.path ++ "/") n.children := by
  induction h with
  | level named ordered below ih =>
    obtain ⟨m, hm, rfl | hn⟩ := mem_allNodes.1 hn
    · exact below n hm
    · exact ih m hm hn

theorem Shaped.isBelow (h : Shaped above t) {m n : Node} (hm : m ∈ t.allNodes)
    (hn : n ∈ m.children.allNodes) : Path.IsBelow m.label.path n.label.path := by
  obtain ⟨k, hk, hn⟩ := mem_allNodes.1 hn
  obtain ⟨ss, -, hpath⟩ := (h.children_of_mem_allNodes hm).path_eq hk (by simpa using hn)
  rw [hpath]
  exact Path.isBelow_append _ _

theorem Shaped.not_isBelow (h : Shaped above t) {m n m' n' : Node} (hm : m ∈ t.nodes)
    (hn : n ∈ t.nodes) (hne : m.label.name ≠ n.label.name) (hm' : m' ∈ m :: m.children.allNodes)
    (hn' : n' ∈ n :: n.children.allNodes) : ¬ Path.IsBelow m'.label.path n'.label.path := by
  obtain ⟨ss, hss, hms⟩ := h.path_eq hm hm'
  obtain ⟨ts, hts, hnt⟩ := h.path_eq hn hn'
  have hnames : ∀ t ∈ n.label.name :: ts, Path.IsName t := by
    simpa using ⟨(h.named n hn).isName, hts⟩
  rw [hms, hnt, Path.isBelow_append_left, Path.isBelow_join_iff (by simp) hnames]
  rintro ⟨us, vs, hus, -, heq, hjoin⟩
  have husn : ∀ u ∈ us, Path.IsName u :=
    fun u hu => hnames u (heq ▸ List.mem_append_left vs hu)
  obtain rfl := Path.join_injective (by simp) (by simpa using ⟨(h.named m hm).isName, hss⟩)
    hus husn hjoin
  exact hne (List.cons.inj heq).1.symm

theorem Shaped.not_isBelow_file (h : Shaped above (.file l rest)) {n : Node}
    (hn : n ∈ rest.allNodes) : ¬ Path.IsBelow n.label.path l.path := by
  obtain ⟨k, hk, hn⟩ := mem_allNodes.1 hn
  have hbefore := (List.pairwise_cons.1 h.ordered).1 k hk
  have hfirst : Node.file l ∈ (Tree.file l rest).nodes := by simp [nodes]
  exact h.not_isBelow (List.mem_cons_of_mem _ hk) hfirst hbefore.name_ne.symm (by simpa using hn)
    List.mem_cons_self

theorem Shaped.not_isBelow_dir (h : Shaped above (.dir l children rest)) {m n : Node}
    (hm : m ∈ .dir l children :: children.allNodes) (hn : n ∈ rest.allNodes) :
    ¬ Path.IsBelow m.label.path n.label.path ∧ ¬ Path.IsBelow n.label.path m.label.path := by
  obtain ⟨k, hk, hn⟩ := mem_allNodes.1 hn
  have hn : n ∈ k :: k.children.allNodes := by simpa using hn
  have hbefore := (List.pairwise_cons.1 h.ordered).1 k hk
  have hfirst : Node.dir l children ∈ (Tree.dir l children rest).nodes := by simp [nodes]
  exact ⟨h.not_isBelow hfirst (List.mem_cons_of_mem _ hk) hbefore.name_ne hm hn,
    h.not_isBelow (List.mem_cons_of_mem _ hk) hfirst hbefore.name_ne.symm hn hm⟩

theorem Shaped.isBelow_iff (h : Shaped above t) {m n : Node} (hm : m ∈ t.allNodes)
    (hn : n ∈ t.allNodes) :
    Path.IsBelow m.label.path n.label.path ↔ n ∈ m.children.allNodes := by
  refine ⟨fun hbelow => ?_, h.isBelow hm⟩
  induction h with
  | @level above t named ordered below ih =>
    have h : Shaped above t := .level named ordered below
    obtain ⟨k, hk, hmk⟩ := mem_allNodes.1 hm
    obtain ⟨k', hk', hnk⟩ := mem_allNodes.1 hn
    have hname : k.label.name = k'.label.name := by
      by_contra hne
      exact h.not_isBelow hk hk' hne (List.mem_cons.2 hmk) (List.mem_cons.2 hnk) hbelow
    have hpath : k.label.path = k'.label.path := by
      rw [(named k hk).path_eq, (named k' hk').path_eq, hname]
    obtain rfl : k = k' := List.inj_on_of_nodup_map h.nodup_paths
      (mem_allNodes.2 ⟨k, hk, .inl rfl⟩) (mem_allNodes.2 ⟨k', hk', .inl rfl⟩) hpath
    rcases hmk with rfl | hmk <;> rcases hnk with rfl | hnk
    · exact absurd hbelow (Path.not_isBelow_self _)
    · exact hnk
    · exact absurd ((h.isBelow hn hmk).trans hbelow) (Path.not_isBelow_self _)
    · exact ih k hk hmk hnk

theorem Shaped.filter_isBelow_files (h : Shaped above t) {d : Node} (hd : d ∈ t.allNodes)
    (hdir : d.isDir = true) :
    t.files.filter (Path.IsBelow d.label.path ·.path) = d.children.files := by
  have hnone {ls : List Label} (hls : ∀ l ∈ ls, ¬ Path.IsBelow d.label.path l.path) :
      ls.filter (Path.IsBelow d.label.path ·.path) = [] := by
    simpa [List.filter_eq_nil_iff] using hls
  induction t generalizing above with
  | nil => cases hd
  | file l rest ih =>
    rcases List.mem_cons.1 hd with rfl | hd
    · cases hdir
    · rw [files, List.filter_cons_of_neg (by simpa using h.not_isBelow_file hd), ih h.of_file hd]
  | dir l children rest ihc ihr =>
    rw [files, List.filter_append]
    rcases List.mem_cons.1 hd with rfl | hd
    · have hall : children.files.filter (Path.IsBelow l.path ·.path) = children.files := by
        rw [List.filter_eq_self]
        intro l' hl'
        simpa [Node.label] using h.isBelow hd (mem_files.1 hl')
      have hrest := hnone fun l' hl' => (h.not_isBelow_dir (by simp) (mem_files.1 hl')).1
      rw [hrest, List.append_nil]
      exact hall
    · rcases List.mem_append.1 hd with hd | hd
      · have hrest := hnone fun l' hl' =>
          (h.not_isBelow_dir (List.mem_cons_of_mem _ hd) (mem_files.1 hl')).1
        rw [ihc h.of_dir.1 hd, hrest, List.append_nil]
      · have hchildren := hnone fun l' hl' =>
          (h.not_isBelow_dir (List.mem_cons_of_mem _ (mem_files.1 hl')) hd).2
        rw [ihr h.of_dir.2 hd, hchildren, List.nil_append]

theorem Shaped.filter_isBelow_filePaths (h : Shaped above t) {d : Node} (hd : d ∈ t.allNodes)
    (hdir : d.isDir = true) :
    t.filePaths.filter (Path.IsBelow d.label.path) = d.children.filePaths := by
  rw [filePaths, filePaths, ← h.filter_isBelow_files hd hdir, List.filter_map]
  rfl

theorem Shaped.nodup_filter (h : Shaped above t) (p : Node → Bool) :
    (((t.allNodes.filter p).map (·.label)).map (·.path)).Nodup := by
  rw [List.map_map]
  have hsub : ((t.allNodes.filter p).map (·.label.path)).Sublist t.paths :=
    List.filter_sublist.map _
  exact hsub.nodup h.nodup_paths

theorem Shaped.nodup_filePaths (h : Shaped above t) : t.filePaths.Nodup := by
  rw [filePaths, files_eq_filter_allNodes]
  exact h.nodup_filter _

theorem Shaped.nodup_dirPaths (h : Shaped above t) : t.dirPaths.Nodup := by
  rw [dirPaths, dirs_eq_filter_allNodes]
  exact h.nodup_filter _

end

end Tree

end TreeSelection
