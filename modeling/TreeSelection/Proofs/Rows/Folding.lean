import TreeSelection.Proofs.Rows.Preorder
import TreeSelection.Proofs.Tree.Below

namespace TreeSelection

/-- The second rows are the first without what is listed below the node: one block, directly behind
the row of the node. -/
inductive Row.Folds (n : Node) : List Row → List Row → Prop
  | block {before block after : List Row} {depth : Nat}
      (below : ∀ r ∈ block, Path.IsBelow n.label.path r.node.label.path)
      (others : ∀ r ∈ before ++ after, ¬ Path.IsBelow n.label.path r.node.label.path) :
      Folds n (before ++ ⟨depth, n⟩ :: (block ++ after)) (before ++ ⟨depth, n⟩ :: after)

namespace Tree

variable {t : Tree} {d n : Node}

theorem exists_allNodes_eq (hd : d ∈ t.allNodes) :
    ∃ before after, t.allNodes = before ++ d :: (d.children.allNodes ++ after) := by
  induction t with
  | nil => cases hd
  | file l rest ih =>
    rcases List.mem_cons.1 hd with rfl | hd
    · exact ⟨[], rest.allNodes, rfl⟩
    · obtain ⟨before, after, heq⟩ := ih hd
      exact ⟨.file l :: before, after, by rw [allNodes, heq, List.cons_append]⟩
  | dir l children rest ihc ihr =>
    rw [allNodes]
    rcases List.mem_cons.1 hd with rfl | hd
    · exact ⟨[], rest.allNodes, rfl⟩
    · rcases List.mem_append.1 hd with hd | hd
      · obtain ⟨before, after, heq⟩ := ihc hd
        exact ⟨.dir l children :: before, after ++ rest.allNodes, by simp [heq]⟩
      · obtain ⟨before, after, heq⟩ := ihr hd
        exact ⟨.dir l children :: (children.allNodes ++ before), after, by simp [heq]⟩

theorem Shaped.exists_block (h : t.Shaped "") (hd : d ∈ t.allNodes) :
    ∃ before after, t.allNodes = before ++ d :: (d.children.allNodes ++ after) ∧
      ∀ n ∈ before ++ after, ¬ Path.IsBelow d.label.path n.label.path := by
  obtain ⟨before, after, heq⟩ := exists_allNodes_eq hd
  have hnodup := h.nodup_allNodes
  rw [heq] at hnodup
  obtain ⟨-, hrest, hbefore⟩ := List.nodup_append'.1 hnodup
  have hafter := (List.nodup_append'.1 (List.nodup_cons.1 hrest).2).2.2
  refine ⟨before, after, heq, fun n hn hbelow => ?_⟩
  have hmem : n ∈ t.allNodes := by
    rw [heq]
    simp only [List.mem_append, List.mem_cons] at hn ⊢
    tauto
  have hin := (h.isBelow_iff hd hmem).1 hbelow
  rcases List.mem_append.1 hn with hn | hn
  · exact hbefore hn (List.mem_cons_of_mem _ (List.mem_append_left _ hin))
  · exact hafter hin hn

theorem mem_ancestors : d ∈ t.ancestors n ↔ d ∈ t.allNodes ∧ n ∈ d.children.allNodes := by
  rw [ancestors, List.mem_filter, decide_eq_true_iff]

theorem rows_of_blank {search : String} (hsearch : Text.trim search = "") (h : t.allNodes.Nodup)
    (collapsed : TextSet) : t.rows collapsed search =
      (t.allNodes.filter (t.IsUncovered collapsed ·)).map (t.rowOf 0) := by
  have hshown (n : Node) : t.IsShown collapsed search n ↔ t.IsUncovered collapsed n := by
    rw [IsShown, if_pos hsearch]
  simp only [rows_eq_rowsOf h, rowsOf, hshown]

section

variable {opened closed collapsed : TextSet} {search : String}

theorem IsUncovered.of_mem_children (h : t.IsUncovered collapsed n) (hn : n ∈ d.children.allNodes) :
    t.IsUncovered collapsed d := by
  intro a ha
  obtain ⟨ha, hd⟩ := mem_ancestors.1 ha
  exact h a (mem_ancestors.2 ⟨ha, mem_allNodes_of_mem_children hd hn⟩)

theorem not_isUncovered_of_mem_children (hd : d ∈ t.allNodes) (hn : n ∈ d.children.allNodes)
    (hclosed : d.label.path ∈ collapsed) : ¬ t.IsUncovered collapsed n :=
  fun h => h d (mem_ancestors.2 ⟨hd, hn⟩) hclosed

structure Closes (d : Node) (opened closed : TextSet) : Prop where
  not_mem : d.label.path ∉ opened
  mem : d.label.path ∈ closed
  mem_iff : ∀ p, p ≠ d.label.path → (p ∈ closed ↔ p ∈ opened)

variable (hcloses : Closes d opened closed) (h : t.Shaped "")

include hcloses h

theorem Closes.isUncovered_iff (hn : ¬ Path.IsBelow d.label.path n.label.path) :
    t.IsUncovered closed n ↔ t.IsUncovered opened n := by
  refine forall₂_congr fun a ha => not_congr (hcloses.mem_iff _ fun hpath => hn ?_)
  obtain ⟨ha, hna⟩ := mem_ancestors.1 ha
  rw [← hpath]
  exact h.isBelow ha hna

variable (hd : d ∈ t.allNodes)

include hd

theorem Closes.rows_eq (hsearch : Text.trim search = "") (hhidden : ¬ t.IsUncovered opened d) :
    t.rows closed search = t.rows opened search := by
  rw [rows_of_blank hsearch h.nodup_allNodes, rows_of_blank hsearch h.nodup_allNodes]
  refine congrArg (List.map _) (List.filter_congr fun n hn => decide_eq_decide.2 ?_)
  by_cases hbelow : Path.IsBelow d.label.path n.label.path
  · have hn := (h.isBelow_iff hd hn).1 hbelow
    exact iff_of_false (not_isUncovered_of_mem_children hd hn hcloses.mem)
      fun hshown => hhidden (hshown.of_mem_children hn)
  · exact hcloses.isUncovered_iff h hbelow

theorem Closes.folds_rows (hsearch : Text.trim search = "") (hshown : t.IsUncovered opened d) :
    Row.Folds d (t.rows opened search) (t.rows closed search) := by
  obtain ⟨before, after, heq, houter⟩ := h.exists_block hd
  have hsame {ns : List Node} (hns : ns ⊆ before ++ after) :
      ns.filter (t.IsUncovered closed ·) = ns.filter (t.IsUncovered opened ·) :=
    List.filter_congr fun n hn => decide_eq_decide.2 <|
      hcloses.isUncovered_iff h (houter n (hns hn))
  have hnone : d.children.allNodes.filter (t.IsUncovered closed ·) = [] := by
    rw [List.filter_eq_nil_iff]
    intro n hn
    simpa using not_isUncovered_of_mem_children hd hn hcloses.mem
  have hself : t.IsUncovered closed d :=
    (hcloses.isUncovered_iff h (Path.not_isBelow_self _)).2 hshown
  rw [rows_of_blank hsearch h.nodup_allNodes, rows_of_blank hsearch h.nodup_allNodes, heq]
  simp only [List.filter_append, List.filter_cons, decide_eq_true hshown, decide_eq_true hself,
    if_true, hnone, hsame (List.subset_append_left before after),
    hsame (List.subset_append_right before after), List.map_append, List.map_cons, List.nil_append]
  refine .block (fun r hr => ?_) fun r hr => ?_
  · obtain ⟨n, hn, rfl⟩ := List.mem_map.1 hr
    exact h.isBelow hd (List.mem_of_mem_filter hn)
  · rw [← List.map_append, ← List.filter_append] at hr
    obtain ⟨n, hn, rfl⟩ := List.mem_map.1 hr
    exact houter n (List.mem_of_mem_filter hn)

end

end Tree

end TreeSelection
