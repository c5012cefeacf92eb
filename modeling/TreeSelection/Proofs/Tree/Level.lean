import TreeSelection.Proofs.Tree.Shape
import TreeSelection.Tree.Build

namespace TreeSelection

namespace Declaration

theorem mem_names {ds : List Declaration} {name : String} :
    name ∈ names ds ↔ ∃ d ∈ ds, d.segments.head? = some name := by
  rw [names, ← TextSet.mem_def, TextSet.mem_ofList, List.mem_filterMap]

theorem below?_eq_some_iff {name : String} {d d' : Declaration} :
    below? name d = some d' ↔
      d'.segments ≠ [] ∧ d = { d' with segments := name :: d'.segments } := by
  obtain ⟨segments, kind, attrs⟩ := d
  obtain ⟨segments', kind', attrs'⟩ := d'
  match segments with
  | [] => simp [below?]
  | [first] =>
    simp only [below?, reduceCtorEq, false_iff, mk.injEq, List.cons.injEq, not_and]
    rintro hne ⟨-, rfl⟩
    exact absurd rfl hne
  | first :: next :: rest =>
    simp only [below?]
    split
    · next h =>
      subst h
      simp only [Option.some.injEq, mk.injEq, List.cons.injEq, true_and]
      constructor
      · rintro ⟨rfl, rfl, rfl⟩
        simp
      · rintro ⟨_, rfl, rfl, rfl⟩
        simp
    · next h => simp [h]

theorem mem_below {name : String} {ds : List Declaration} {d : Declaration} :
    d ∈ below name ds ↔ d.segments ≠ [] ∧ { d with segments := name :: d.segments } ∈ ds := by
  simp only [below, List.mem_filterMap, below?_eq_some_iff]
  constructor
  · rintro ⟨_, hd, hne, rfl⟩
    exact ⟨hne, hd⟩
  · rintro ⟨hne, hd⟩
    exact ⟨_, hd, hne, rfl⟩

theorem below_eq_nil_of_not_isDir {name : String} {ds : List Declaration}
    (h : isDir name ds = false) : below name ds = [] := by
  simp only [isDir, Bool.or_eq_false_iff] at h
  simpa using h.1

structure Proper (depth : Nat) (ds : List Declaration) : Prop where
  ne_nil : ∀ d ∈ ds, d.segments ≠ []
  isName : ∀ d ∈ ds, ∀ s ∈ d.segments, Path.IsName s
  length_le : ∀ d ∈ ds, d.segments.length ≤ depth

theorem Proper.below {depth : Nat} {ds : List Declaration} (h : Proper (depth + 1) ds)
    (name : String) : Proper depth (below name ds) where
  ne_nil d hd := (mem_below.1 hd).1
  isName d hd s hs := h.isName _ (mem_below.1 hd).2 s (List.mem_cons_of_mem _ hs)
  length_le d hd := by simpa using h.length_le _ (mem_below.1 hd).2

theorem Proper.isName_of_mem_names {depth : Nat} {ds : List Declaration} (h : Proper depth ds)
    {name : String} (hname : name ∈ names ds) : Path.IsName name := by
  obtain ⟨d, hd, hhead⟩ := mem_names.1 hname
  exact h.isName d hd name (List.mem_of_mem_head? hhead)

end Declaration

namespace Tree

open Declaration

@[simp] theorem nodes_foldr_dir (l : String → Label) (c : String → Tree) (names : List String)
    (t : Tree) : (names.foldr (fun name rest => .dir (l name) (c name) rest) t).nodes =
      names.map (fun name => .dir (l name) (c name)) ++ t.nodes := by
  induction names with
  | nil => rfl
  | cons name names ih => simp [nodes, ih]

@[simp] theorem nodes_foldr_file (l : String → Label) (names : List String) (t : Tree) :
    (names.foldr (fun name rest => .file (l name) rest) t).nodes =
      names.map (fun name => .file (l name)) ++ t.nodes := by
  induction names with
  | nil => rfl
  | cons name names ih => simp [nodes, ih]

def nodeAt (depth : Nat) (above : String) (ds : List Declaration) (name : String) : Node :=
  let label : Label := ⟨name, above ++ name, attrsOf name ds⟩
  if isDir name ds then .dir label (level depth (above ++ name ++ "/") (below name ds))
  else .file label

section

variable (depth : Nat) (above : String) (ds : List Declaration) (name : String)

@[simp] theorem label_nodeAt :
    (nodeAt depth above ds name).label = ⟨name, above ++ name, attrsOf name ds⟩ := by
  simp only [nodeAt]
  split <;> rfl

@[simp] theorem isDir_nodeAt : (nodeAt depth above ds name).isDir = isDir name ds := by
  simp only [nodeAt]
  split <;> simp_all [Node.isDir]

theorem level_nil : level depth above [] = .nil := by
  cases depth with
  | zero => rfl
  | succ depth => rfl

@[simp] theorem children_nodeAt : (nodeAt depth above ds name).children =
    level depth (above ++ name ++ "/") (below name ds) := by
  simp only [nodeAt]
  split
  · rfl
  · next h => rw [below_eq_nil_of_not_isDir (by simpa using h), level_nil]; rfl

theorem nodes_level : (level (depth + 1) above ds).nodes =
    ((names ds).filter (isDir · ds)).map (nodeAt depth above ds) ++
      ((names ds).filter (!isDir · ds)).map (nodeAt depth above ds) := by
  simp only [level, List.partition_eq_filter_filter, nodes_foldr_dir, nodes_foldr_file, nodes,
    List.append_nil]
  congr 1 <;> refine List.map_congr_left fun name hname => ?_
  · simp [nodeAt, (List.mem_filter.1 hname).2]
  · have := (List.mem_filter.1 hname).2
    simp_all [nodeAt]

theorem mem_nodes_level {n : Node} : n ∈ (level (depth + 1) above ds).nodes ↔
    ∃ name ∈ names ds, n = nodeAt depth above ds name := by
  simp only [nodes_level, List.mem_append, List.mem_map, List.mem_filter]
  constructor
  · rintro (⟨name, ⟨hname, -⟩, rfl⟩ | ⟨name, ⟨hname, -⟩, rfl⟩) <;> exact ⟨name, hname, rfl⟩
  · rintro ⟨name, hname, rfl⟩
    cases h : isDir name ds
    · exact .inr ⟨name, ⟨hname, by simp [h]⟩, rfl⟩
    · exact .inl ⟨name, ⟨hname, h⟩, rfl⟩

theorem ordered_nodes_level : (level (depth + 1) above ds).nodes.Pairwise Node.Before := by
  have hsorted : (names ds).Pairwise (· < ·) := TextSet.sorted _
  -- two names of one kind: the order is that of the names
  have hsame (b : Bool) : ((names ds).filter (isDir · ds == b)).Pairwise
      fun m n => (nodeAt depth above ds m).Before (nodeAt depth above ds n) := by
    refine (hsorted.filter _).imp_of_mem fun {m n} hm hn hmn => ?_
    have hm := (List.mem_filter.1 hm).2
    have hn := (List.mem_filter.1 hn).2
    refine ⟨by simp_all, by simpa using fun _ => hmn, ?_⟩
    rw [label_nodeAt, label_nodeAt]
    rintro rfl
    exact String.lt_irrefl _ hmn
  rw [nodes_level, List.pairwise_append, List.pairwise_map, List.pairwise_map]
  refine ⟨by simpa using hsame true, by simpa using hsame false, fun _ hmem _ hmem' => ?_⟩
  obtain ⟨m, hm, rfl⟩ := List.mem_map.1 hmem
  obtain ⟨n, hn, rfl⟩ := List.mem_map.1 hmem'
  have hm := (List.mem_filter.1 hm).2
  have hn := (List.mem_filter.1 hn).2
  refine ⟨by simp_all, by simp_all, ?_⟩
  rw [label_nodeAt, label_nodeAt]
  rintro rfl
  simp_all

end

theorem shaped_level {depth : Nat} {above : String} {ds : List Declaration}
    (h : Proper depth ds) : Shaped above (level depth above ds) := by
  induction depth generalizing above ds with
  | zero => exact shaped_nil above
  | succ depth ih =>
    refine .level (fun n hn => ?_) (ordered_nodes_level depth above ds) fun n hn => ?_
    · obtain ⟨name, hname, rfl⟩ := (mem_nodes_level depth above ds).1 hn
      exact ⟨by simpa using h.isName_of_mem_names hname, by simp⟩
    · obtain ⟨name, hname, rfl⟩ := (mem_nodes_level depth above ds).1 hn
      simpa using ih (h.below name)

end Tree

end TreeSelection
