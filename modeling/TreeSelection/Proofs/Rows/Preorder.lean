import TreeSelection.Proofs.Text.Blank
import TreeSelection.Proofs.Tree.Declared
import TreeSelection.Rows

namespace TreeSelection

def Node.IsHit (term : String) (n : Node) : Prop :=
  ∃ m ∈ n :: n.children.allNodes, term.toList <:+: (Text.lowerCase m.label.path).toList

instance (term : String) (n : Node) : Decidable (n.IsHit term) :=
  inferInstanceAs (Decidable (∃ m ∈ _, _))

namespace Tree

def ancestors (t : Tree) (n : Node) : List Node :=
  t.allNodes.filter (n ∈ ·.children.allNodes)

def IsUncovered (t : Tree) (collapsed : TextSet) (n : Node) : Prop :=
  ∀ d ∈ t.ancestors n, d.label.path ∉ collapsed

instance (t : Tree) (collapsed : TextSet) (n : Node) : Decidable (t.IsUncovered collapsed n) :=
  inferInstanceAs (Decidable (∀ d ∈ _, _))

/-- Without a search the contents of collapsed directories are hidden; with a search all that does
not lead to a hit is. -/
def IsShown (t : Tree) (collapsed : TextSet) (search : String) (n : Node) : Prop :=
  if Text.trim search = "" then t.IsUncovered collapsed n else n.IsHit (searchTerm search)

instance (t : Tree) (collapsed : TextSet) (search : String) (n : Node) :
    Decidable (t.IsShown collapsed search n) :=
  inferInstanceAs (Decidable (ite _ _ _))

theorem isFound_iff {term path : String} :
    isFound term path = true ↔ term.toList <:+: (Text.lowerCase path).toList :=
  Text.containsChars_iff

variable {l : Label} {children rest t : Tree} {n : Node}

theorem ancestors_eq_nil (hn : n ∉ t.allNodes) : t.ancestors n = [] := by
  rw [ancestors, List.filter_eq_nil_iff]
  intro d hd hmem
  exact hn (mem_allNodes_of_mem_children hd (by simpa using hmem))

theorem ancestors_file : (file l rest).ancestors n = rest.ancestors n := by
  rw [ancestors, allNodes, List.filter_cons_of_neg (by simp [Node.children, allNodes]), ancestors]

theorem ancestors_dir : (dir l children rest).ancestors n =
    (if n ∈ children.allNodes then [.dir l children] else []) ++
      (children.ancestors n ++ rest.ancestors n) := by
  rw [ancestors, allNodes, List.filter_cons, List.filter_append]
  by_cases hn : n ∈ children.allNodes
  · simp [Node.children, hn, ancestors]
  · simp [Node.children, hn, ancestors]

def rowOf (t : Tree) (depth : Nat) (n : Node) : Row := ⟨depth + (t.ancestors n).length, n⟩

theorem rowOf_zero : t.rowOf 0 = fun n => ⟨(t.ancestors n).length, n⟩ :=
  funext fun n => by rw [rowOf, Nat.zero_add]

theorem rowOf_file (depth : Nat) (n : Node) :
    (file l rest).rowOf depth n = rest.rowOf depth n := by
  rw [rowOf, ancestors_file, rowOf]

section

variable (h : (dir l children rest).allNodes.Nodup)
include h

theorem not_mem_of_nodup_dir : .dir l children ∉ children.allNodes ∧
    .dir l children ∉ rest.allNodes := by
  simpa [allNodes] using (List.nodup_cons.1 h).1

theorem disjoint_of_nodup_dir : children.allNodes.Disjoint rest.allNodes :=
  (List.nodup_append'.1 (List.nodup_cons.1 h).2).2.2

theorem ancestors_dir_self : (dir l children rest).ancestors (.dir l children) = [] := by
  have hn := not_mem_of_nodup_dir h
  rw [ancestors_dir, if_neg hn.1, ancestors_eq_nil hn.1, ancestors_eq_nil hn.2]
  rfl

theorem ancestors_dir_of_mem_children (hn : n ∈ children.allNodes) :
    (dir l children rest).ancestors n = .dir l children :: children.ancestors n := by
  rw [ancestors_dir, if_pos hn, ancestors_eq_nil (disjoint_of_nodup_dir h hn), List.append_nil]
  rfl

theorem ancestors_dir_of_mem_rest (hn : n ∈ rest.allNodes) :
    (dir l children rest).ancestors n = rest.ancestors n := by
  have hnot : n ∉ children.allNodes := fun hc => disjoint_of_nodup_dir h hc hn
  rw [ancestors_dir, if_neg hnot, ancestors_eq_nil hnot]
  rfl

end

def rowsOf (t : Tree) (depth : Nat) (p : Node → Bool) : List Row :=
  (t.allNodes.filter p).map (t.rowOf depth)

theorem rowsOf_congr {depth : Nat} {p q : Node → Bool} (h : ∀ n ∈ t.allNodes, p n = q n) :
    t.rowsOf depth p = t.rowsOf depth q := by
  rw [rowsOf, List.filter_congr h, rowsOf]

theorem rowsOf_eq_nil_iff {depth : Nat} {p : Node → Bool} :
    t.rowsOf depth p = [] ↔ ∀ n ∈ t.allNodes, p n = false := by
  simp [rowsOf, List.filter_eq_nil_iff]

theorem rowsOf_file (h : (file l rest).allNodes.Nodup) (depth : Nat) (p : Node → Bool) :
    (file l rest).rowsOf depth p =
      (if p (.file l) then [⟨depth, .file l⟩] else []) ++ rest.rowsOf depth p := by
  have hself : rest.rowOf depth (.file l) = ⟨depth, .file l⟩ := by
    rw [rowOf, ancestors_eq_nil (List.nodup_cons.1 h).1]
    rfl
  have hrow : (file l rest).rowOf depth = rest.rowOf depth := funext (rowOf_file depth)
  rw [rowsOf, allNodes, List.filter_cons, hrow]
  split
  · rw [List.map_cons, hself]
    rfl
  · rfl

theorem rowsOf_dir (h : (dir l children rest).allNodes.Nodup) (depth : Nat) (p : Node → Bool) :
    (dir l children rest).rowsOf depth p =
      (if p (.dir l children) then [⟨depth, .dir l children⟩] else []) ++
        (children.rowsOf (depth + 1) p ++ rest.rowsOf depth p) := by
  have hself : (dir l children rest).rowOf depth (.dir l children) = ⟨depth, .dir l children⟩ := by
    rw [rowOf, ancestors_dir_self h]
    rfl
  have hchildren : (children.allNodes.filter p).map ((dir l children rest).rowOf depth) =
      children.rowsOf (depth + 1) p := List.map_congr_left fun n hn => by
    rw [rowOf, ancestors_dir_of_mem_children h (List.mem_of_mem_filter hn), List.length_cons, rowOf,
      Nat.add_assoc, Nat.add_comm 1]
  have hrest : (rest.allNodes.filter p).map ((dir l children rest).rowOf depth) =
      rest.rowsOf depth p := List.map_congr_left fun n hn => by
    rw [rowOf, ancestors_dir_of_mem_rest h (List.mem_of_mem_filter hn), rowOf]
  rw [rowsOf, allNodes, List.filter_cons, List.filter_append]
  split
  · rw [List.map_cons, List.map_append, hself, hchildren, hrest]
    rfl
  · rw [List.map_append, hchildren, hrest]
    rfl

theorem nodup_of_nodup_file (h : (file l rest).allNodes.Nodup) : rest.allNodes.Nodup :=
  (List.nodup_cons.1 h).2

theorem nodup_of_nodup_dir (h : (dir l children rest).allNodes.Nodup) :
    children.allNodes.Nodup ∧ rest.allNodes.Nodup := by
  have happend := List.nodup_append'.1 (List.nodup_cons.1 h).2
  exact ⟨happend.1, happend.2.1⟩

section

variable {collapsed : TextSet}

theorem isUncovered_of_ancestors_eq {t t' : Tree} (h : t.ancestors n = t'.ancestors n) :
    decide (t.IsUncovered collapsed n) = decide (t'.IsUncovered collapsed n) := by
  rw [decide_eq_decide, IsUncovered, h, IsUncovered]

theorem isUncovered_of_ancestors_eq_nil (h : t.ancestors n = []) :
    decide (t.IsUncovered collapsed n) = true := by
  rw [decide_eq_true_iff, IsUncovered, h]
  exact List.forall_mem_nil _

theorem isUncovered_dir_iff (h : (dir l children rest).allNodes.Nodup)
    (hn : n ∈ children.allNodes) : (dir l children rest).IsUncovered collapsed n ↔
      l.path ∉ collapsed ∧ children.IsUncovered collapsed n := by
  rw [IsUncovered, ancestors_dir_of_mem_children h hn, List.forall_mem_cons, IsUncovered]
  rfl

end

theorem expandedRows_eq (h : t.allNodes.Nodup) (collapsed : TextSet) (depth : Nat) :
    t.expandedRows collapsed depth = t.rowsOf depth (t.IsUncovered collapsed ·) := by
  induction t generalizing depth with
  | nil => rfl
  | file l rest ih =>
    have hself : (file l rest).ancestors (.file l) = [] := by
      rw [ancestors_file, ancestors_eq_nil (List.nodup_cons.1 h).1]
    rw [expandedRows, ih (nodup_of_nodup_file h), rowsOf_file h,
      if_pos (isUncovered_of_ancestors_eq_nil hself),
      rowsOf_congr fun n _ => isUncovered_of_ancestors_eq ancestors_file]
    rfl
  | dir l children rest ihc ihr =>
    obtain ⟨hc, hr⟩ := nodup_of_nodup_dir h
    have hshown : (if collapsed.contains l.path then [] else
          children.expandedRows collapsed (depth + 1)) =
        children.rowsOf (depth + 1) ((dir l children rest).IsUncovered collapsed ·) := by
      split
      · next hmem =>
        rw [TextSet.contains_iff] at hmem
        exact (rowsOf_eq_nil_iff.2 fun n hn => by simp [isUncovered_dir_iff h hn, hmem]).symm
      · next hmem =>
        rw [TextSet.contains_iff] at hmem
        rw [ihc hc]
        exact rowsOf_congr fun n hn => by simp [isUncovered_dir_iff h hn, hmem]
    rw [expandedRows, hshown, ihr hr, rowsOf_dir h,
      if_pos (isUncovered_of_ancestors_eq_nil (ancestors_dir_self h)),
      rowsOf_congr (t := rest) fun n hn =>
        isUncovered_of_ancestors_eq (ancestors_dir_of_mem_rest h hn)]
    rfl

section

variable {term : String}

theorem isHit_file : (Node.file l).IsHit term ↔ isFound term l.path = true := by
  simp [Node.IsHit, Node.children, allNodes, Node.label, isFound_iff]

theorem isHit_dir : (Node.dir l children).IsHit term ↔
    isFound term l.path = true ∨ ∃ n ∈ children.allNodes, n.IsHit term := by
  rw [isFound_iff, Node.IsHit, List.exists_mem_cons_iff]
  refine or_congr .rfl ⟨fun ⟨m, hm, hfound⟩ => ⟨m, hm, m, List.mem_cons_self, hfound⟩, ?_⟩
  rintro ⟨n, hn, m, hm, hfound⟩
  rcases List.mem_cons.1 hm with rfl | hm
  · exact ⟨m, hn, hfound⟩
  · exact ⟨m, mem_allNodes_of_mem_children hn hm, hfound⟩

theorem isEmpty_rowsOf_isHit {depth : Nat} :
    (t.rowsOf depth (Node.IsHit term ·)).isEmpty = true ↔ ¬ ∃ n ∈ t.allNodes, n.IsHit term := by
  rw [List.isEmpty_iff, rowsOf_eq_nil_iff]
  simp

end

theorem matchingRows_eq (h : t.allNodes.Nodup) (term : String) (depth : Nat) :
    t.matchingRows term depth = t.rowsOf depth (Node.IsHit term ·) := by
  induction t generalizing depth with
  | nil => rfl
  | file l rest ih =>
    rw [matchingRows, ih (nodup_of_nodup_file h), rowsOf_file h]
    simp only [decide_eq_true_eq, isHit_file]
    split <;> rfl
  | dir l children rest ihc ihr =>
    obtain ⟨hc, hr⟩ := nodup_of_nodup_dir h
    have hhit : (isFound term l.path ||
          !(children.rowsOf (depth + 1) (Node.IsHit term ·)).isEmpty) =
        decide ((Node.dir l children).IsHit term) := by
      rw [Bool.eq_iff_iff, decide_eq_true_iff, isHit_dir, Bool.or_eq_true, Bool.not_eq_true',
        ← Bool.not_eq_true, isEmpty_rowsOf_isHit, not_not]
    rw [matchingRows, ihc hc, ihr hr, rowsOf_dir h]
    simp only [hhit]
    split
    · rfl
    · next hnot =>
      -- a directory that is not hit has no row in it that would be lost with its own
      have hnone : children.rowsOf (depth + 1) (Node.IsHit term ·) = [] := by
        rw [← List.isEmpty_iff, isEmpty_rowsOf_isHit]
        intro hmem
        exact hnot (decide_eq_true (isHit_dir.2 (.inr hmem)))
      rw [hnone]
      rfl

theorem searchTerm_isEmpty {search : String} :
    (searchTerm search).isEmpty = true ↔ Text.trim search = "" := by
  rw [String.isEmpty_iff, searchTerm, Text.lowerCase_eq_empty_iff]

theorem rows_eq_rowsOf (h : t.allNodes.Nodup) (collapsed : TextSet) (search : String) :
    t.rows collapsed search = t.rowsOf 0 (t.IsShown collapsed search ·) := by
  simp only [rows, searchTerm_isEmpty, IsShown]
  split
  · exact expandedRows_eq h collapsed 0
  · exact matchingRows_eq h _ 0

theorem mem_rows_iff (h : t.allNodes.Nodup) {collapsed : TextSet} {search : String} {r : Row} :
    r ∈ t.rows collapsed search ↔ r.node ∈ t.allNodes ∧ t.IsShown collapsed search r.node ∧
      r.depth = (t.ancestors r.node).length := by
  rw [rows_eq_rowsOf h, rowsOf, rowOf_zero, List.mem_map]
  constructor
  · rintro ⟨n, hn, rfl⟩
    obtain ⟨hmem, hshown⟩ := List.mem_filter.1 hn
    exact ⟨hmem, of_decide_eq_true hshown, rfl⟩
  · rintro ⟨hmem, hshown, hdepth⟩
    exact ⟨r.node, List.mem_filter.2 ⟨hmem, decide_eq_true hshown⟩, by rw [← hdepth]⟩

theorem isShown_iff_isHit {collapsed : TextSet} {search : String} (h : Text.trim search ≠ "") :
    t.IsShown collapsed search n ↔ n.IsHit (searchTerm search) := by
  rw [IsShown, if_neg h]

theorem rows_ofEntries (es : List Entry) (collapsed : TextSet) (search : String) :
    let t := ofEntries es
    t.rows collapsed search =
        (t.allNodes.filter (t.IsShown collapsed search ·)).map
          (fun n => ⟨(t.ancestors n).length, n⟩) ∧
      ((t.rows collapsed search).map (·.node.label.path)).Nodup := by
  intro t
  have hpaths : t.paths.Nodup := (shaped_ofEntries es).nodup_paths
  have h : t.rows collapsed search = t.rowsOf 0 (t.IsShown collapsed search ·) :=
    rows_eq_rowsOf (List.Nodup.of_map _ hpaths) collapsed search
  have hmap : (t.rows collapsed search).map (·.node.label.path) =
      (t.allNodes.filter (t.IsShown collapsed search ·)).map (·.label.path) := by
    rw [h, rowsOf, List.map_map]
    rfl
  constructor
  · rw [h, rowsOf, rowOf_zero]
  · rw [hmap]
    exact (List.filter_sublist.map _).nodup hpaths

end Tree

end TreeSelection
