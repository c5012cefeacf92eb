import TreeSelection.Proofs.Explorer.Checkboxes
import TreeSelection.Proofs.Rows.Outline

namespace TreeSelection.Explorer

variable {e : Explorer}

/-- The row of a directory with something in it is marked as expanded exactly when the row of a
child comes next, and a directory whose path is found by a search shows all that is in it. -/
structure MarksExpansion (e : Explorer) : Prop where
  isExpanded_iff : ∀ i row, e.view.rows[i]? = some row →
    ∀ d ∈ e.tree.allNodes, d.label.path = row.path → d.children.nodes ≠ [] →
      (row.isExpanded = true ↔ ∃ next, e.view.rows[i + 1]? = some next ∧
        next.depth = row.depth + 1 ∧ ∃ c ∈ d.children.nodes, c.label.path = next.path)
  shown_of_isFound : Text.trim e.search ≠ "" →
    ∀ d ∈ e.tree.allNodes, Tree.isFound (Tree.searchTerm e.search) d.label.path = true →
      ∀ n ∈ d.children.allNodes, ∃ row ∈ e.view.rows, row.path = n.label.path

theorem getElem?_rows_view {i : Nat} {row : RowView} : e.view.rows[i]? = some row ↔
    ∃ r, e.rows[i]? = some r ∧ e.rowView (Tree.searchTerm e.search) r = row := by
  rw [rows_view, List.getElem?_map, Option.map_eq_some_iff]

theorem node_mem_of_mem_rows {r : Row} (h : r ∈ e.rows) : r.node ∈ e.tree.allNodes :=
  (Tree.sublist_rows e.collapsed e.search e.tree).subset (List.mem_map_of_mem h)

theorem rowView_depth (term : String) (r : Row) : (e.rowView term r).depth = r.depth := by
  cases h : r.node <;> simp [rowView, h]

theorem rowView_path (term : String) (r : Row) : (e.rowView term r).path = r.node.label.path := by
  cases h : r.node <;> simp [rowView, h]

theorem rowView_isExpanded (term : String) {r : Row} (h : r.node.children.nodes ≠ []) :
    (e.rowView term r).isExpanded = (!term.isEmpty || !e.collapsed.contains r.node.label.path) := by
  cases hnode : r.node with
  | file l => simp [hnode, Node.children, Tree.nodes] at h
  | dir l children => simp [rowView, hnode]

variable [Glob.Limit]

theorem Sound.eq_of_path_eq (h : e.Sound) {m n : Node} (hm : m ∈ e.tree.allNodes)
    (hn : n ∈ e.tree.allNodes) (hpath : m.label.path = n.label.path) : m = n :=
  List.inj_on_of_nodup_map h.shaped.nodup_paths hm hn hpath

theorem Sound.marksExpansion (h : e.Sound) : e.MarksExpansion where
  isExpanded_iff i row hrow d hd hpath hchildren := by
    obtain ⟨r, hr, rfl⟩ := getElem?_rows_view.1 hrow
    have hmem : r ∈ e.rows := List.mem_of_getElem? hr
    have hnode : r.node ∈ e.tree.allNodes := node_mem_of_mem_rows hmem
    obtain rfl : d = r.node := h.eq_of_path_eq hd hnode (by rw [hpath, rowView_path])
    rw [rowView_isExpanded _ hchildren, rowView_depth,
      ← Tree.contents_ne_nil_iff h.shaped hmem hchildren,
      ← (Tree.outline_rows e.tree e.collapsed e.search).next_iff hr]
    constructor
    · rintro ⟨next, hnext, hdepth, hchild⟩
      exact ⟨_, getElem?_rows_view.2 ⟨next, hnext, rfl⟩, by rw [rowView_depth, hdepth],
        next.node, hchild, (rowView_path _ _).symm⟩
    · rintro ⟨_, hview, hdepth, c, hc, hcpath⟩
      obtain ⟨next, hnext, rfl⟩ := getElem?_rows_view.1 hview
      have hchild : c ∈ e.tree.allNodes :=
        Tree.mem_allNodes_of_mem_children hnode (Tree.mem_allNodes.2 ⟨c, hc, .inl rfl⟩)
      have hpath : c.label.path = next.node.label.path := by rw [hcpath, rowView_path]
      obtain rfl : c = next.node := h.eq_of_path_eq hchild
        (node_mem_of_mem_rows (List.mem_of_getElem? hnext)) hpath
      exact ⟨next, hnext, (rowView_depth _ next).symm.trans hdepth, hc⟩
  shown_of_isFound hsearch d hd hfound n hn := by
    let r : Row := ⟨(e.tree.ancestors n).length, n⟩
    have hmem : n ∈ e.tree.allNodes := Tree.mem_allNodes_of_mem_children hd hn
    have hshown : e.tree.IsShown e.collapsed e.search n :=
      (Tree.isShown_iff_isHit hsearch).2 (Tree.isHit_of_isFound h.shaped hd hfound hn)
    have hrow : r ∈ e.rows :=
      (Tree.mem_rows_iff h.shaped.nodup_allNodes).2 ⟨hmem, hshown, rfl⟩
    exact ⟨e.rowView (Tree.searchTerm e.search) r, rows_view e ▸ List.mem_map_of_mem hrow,
      rowView_path _ r⟩

theorem marksExpansion_run (config : Config) (edits : List Edit) :
    ((ofConfig config).run edits).MarksExpansion :=
  (coherent_run config edits).toSound.marksExpansion

end TreeSelection.Explorer
