import TreeSelection.Proofs.Tree.Shape
import TreeSelection.Rows

namespace TreeSelection.Tree

theorem sublist_expandedRows (collapsed : TextSet) (depth : Nat) (t : Tree) :
    ((t.expandedRows collapsed depth).map (·.node)).Sublist t.allNodes := by
  induction t generalizing depth with
  | nil => exact List.nil_sublist _
  | file l rest ih => exact (ih depth).cons_cons _
  | dir l children rest ihc ihr =>
    simp only [expandedRows, allNodes, List.map_cons, List.map_append]
    refine (List.Sublist.append ?_ (ihr depth)).cons_cons _
    split
    · exact List.nil_sublist _
    · exact ihc (depth + 1)

theorem sublist_matchingRows (term : String) (depth : Nat) (t : Tree) :
    ((t.matchingRows term depth).map (·.node)).Sublist t.allNodes := by
  induction t generalizing depth with
  | nil => exact List.nil_sublist _
  | file l rest ih =>
    rw [matchingRows, allNodes]
    split
    · exact (ih depth).cons_cons _
    · exact (ih depth).cons _
  | dir l children rest ihc ihr =>
    rw [matchingRows, allNodes]
    split
    · rw [List.map_cons, List.map_append]
      exact ((ihc (depth + 1)).append (ihr depth)).cons_cons _
    · exact ((ihr depth).trans (List.sublist_append_right _ _)).cons _

theorem sublist_rows (collapsed : TextSet) (search : String) (t : Tree) :
    ((t.rows collapsed search).map (·.node)).Sublist t.allNodes := by
  simp only [rows]
  split
  · exact sublist_expandedRows collapsed 0 t
  · exact sublist_matchingRows _ 0 t

end TreeSelection.Tree
