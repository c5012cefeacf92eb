import TreeSelection.Proofs.Tree.Below
import TreeSelection.Proofs.Tree.Declared

namespace TreeSelection.Tree

theorem filePaths_eq_flatMap (t : Tree) : t.filePaths = t.nodes.flatMap Node.filePaths := by
  rw [filePaths]
  induction t with
  | nil => rfl
  | file l rest ih => simp [files, nodes, Node.filePaths, ih]
  | dir l children rest _ ih => simp [files, nodes, Node.filePaths, filePaths, ih]

theorem fileCount_eq_total (t : Tree) :
    t.fileCount = Number.total (t.nodes.map (·.fileCount)) := by
  induction t with
  | nil => rfl
  | file l rest ih => simp [fileCount, nodes, Node.fileCount, ih]
  | dir l children rest _ ih => simp [fileCount, nodes, Node.fileCount, ih]

theorem totalSize_eq_cappedTotal (t : Tree) :
    t.totalSize = Number.cappedTotal (t.nodes.map (·.totalSize)) := by
  rw [Number.cappedTotal_eq]
  induction t with
  | nil => rfl
  | file l rest ih =>
    rw [totalSize, ih, Number.capped_add_capped]
    rfl
  | dir l children rest _ ih =>
    rw [totalSize, ih, Number.capped_add_capped]
    rfl

/-- A directory of the tree has gathered from its children, in their order, the paths, the number
and the capped size of the files below it, and these are the files of the tree whose paths lead
below its own. -/
structure Aggregates (t : Tree) (d : Node) : Prop where
  filePaths_gathered : d.filePaths = d.children.nodes.flatMap Node.filePaths
  filePaths_eq : d.filePaths = d.children.files.map (·.path)
  nodup_filePaths : d.filePaths.Nodup
  mem_filePaths : ∀ p, p ∈ d.filePaths ↔ p ∈ t.filePaths ∧ Path.IsBelow d.label.path p
  fileCount_gathered : d.fileCount = Number.total (d.children.nodes.map (·.fileCount))
  fileCount_eq : d.fileCount = d.filePaths.length
  totalSize_gathered : d.totalSize = Number.cappedTotal (d.children.nodes.map (·.totalSize))
  totalSize_eq : d.totalSize =
    Number.capped (Number.total
      ((t.files.filter (Path.IsBelow d.label.path ·.path)).map (·.attrs.size)))

theorem Shaped.aggregates {above : String} {t : Tree} (h : Shaped above t) {d : Node}
    (hd : d ∈ t.allNodes) (hdir : d.isDir = true) : t.Aggregates d := by
  have hfiles := h.filter_isBelow_files hd hdir
  have hshaped := h.children_of_mem_allNodes hd
  cases d with
  | file l => cases hdir
  | dir l children =>
    exact {
      filePaths_gathered := filePaths_eq_flatMap children
      filePaths_eq := rfl
      nodup_filePaths := hshaped.nodup_filePaths
      mem_filePaths := fun p => by
        show p ∈ children.filePaths ↔ _
        have hpaths := h.filter_isBelow_filePaths hd hdir
        simp only [Node.children] at hpaths
        rw [← hpaths, List.mem_filter, decide_eq_true_iff]
      fileCount_gathered := fileCount_eq_total children
      fileCount_eq := by
        show children.fileCount = (children.files.map _).length
        rw [fileCount_eq_length, List.length_map]
      totalSize_gathered := totalSize_eq_cappedTotal children
      totalSize_eq := by
        rw [hfiles]
        exact Tree.totalSize_eq children }

theorem aggregates_ofEntries (es : List Entry) :
    let t := ofEntries es
    (∀ d ∈ t.allNodes, d.isDir = true → t.Aggregates d) ∧
      t.filePaths = t.nodes.flatMap Node.filePaths ∧
      t.fileCount = Number.total (t.nodes.map (·.fileCount)) ∧
      t.fileCount = t.filePaths.length := by
  intro t
  refine ⟨fun d hd hdir => (shaped_ofEntries es).aggregates hd hdir, filePaths_eq_flatMap t,
    fileCount_eq_total t, ?_⟩
  rw [fileCount_eq_length, filePaths, List.length_map]

theorem aggregates_ofEntries_capped :
    let es : List Entry :=
      [⟨"a/c/e", .file, ⟨7, false, false⟩⟩, ⟨"a/b", .file, ⟨Number.maxSize, false, false⟩⟩,
        ⟨"a-b/f", .file, ⟨1, false, false⟩⟩, ⟨"a/c/d", .file, ⟨5, false, false⟩⟩]
    ∃ d ∈ (ofEntries es).allNodes, d.isDir = true ∧ d.label.path = "a" ∧
      d.filePaths = ["a/c/d", "a/c/e", "a/b"] ∧ d.totalSize = Number.maxSize ∧
      (ofEntries es).Aggregates d := by
  intro es
  have hnode : ∃ d ∈ (ofEntries es).allNodes, d.isDir = true ∧ d.label.path = "a" ∧
      d.filePaths = ["a/c/d", "a/c/e", "a/b"] ∧ d.totalSize = Number.maxSize := by
    decide +kernel
  obtain ⟨d, hd, hdir, hpath, hfiles, hsize⟩ := hnode
  exact ⟨d, hd, hdir, hpath, hfiles, hsize, (aggregates_ofEntries es).1 d hd hdir⟩

end TreeSelection.Tree
