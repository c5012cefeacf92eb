import TreeSelection.Proofs.Path.Joining
import TreeSelection.Proofs.Tree.Reordering
import TreeSelection.Proofs.Tree.Settling

namespace TreeSelection

open Declaration

namespace Draft

variable {ss : List String} {name : String} {ds : List Declaration}

theorem reaches_iff_exists : Reaches ss ds ↔ ∃ d ∈ ds, ∃ rest, rest ≠ [] ∧ d.segments = ss ++ rest := by
  simp only [Reaches, isAbove_iff]

theorem word_last?_eq (ss : List String) (name : String) (ds : List Declaration) :
    (last? name (beneath ss ds)).map word = (declared? (ss ++ [name]) ds).map word :=
  word_last?_beneath ss name ds

theorem isDir_beneath_eq : isDir name (beneath ss ds) =
    (decide (Reaches (ss ++ [name]) ds) || (declared? (ss ++ [name]) ds).any (·.kind = .dir)) := by
  have hword := word_last?_eq ss name ds
  rw [Bool.eq_iff_iff, isDir_beneath_iff, Bool.or_eq_true, decide_eq_true_iff, reaches_iff_exists]
  refine or_congr_right ?_
  cases hl : last? name (beneath ss ds) <;> cases hd : declared? (ss ++ [name]) ds <;>
    simp_all [word]

theorem attrsOf_beneath_eq : attrsOf name (beneath ss ds) =
    match declared? (ss ++ [name]) ds with
    | some d => if (d.kind = .dir) = isDir name (beneath ss ds) then d.attrs else {}
    | none => {} := by
  have hword := word_last?_eq ss name ds
  rw [attrsOf]
  cases hl : last? name (beneath ss ds) <;> cases hd : declared? (ss ++ [name]) ds <;>
    simp_all [word]

def child (ss : List String) (ds : List Declaration) (name : String) : Declaration :=
  ⟨ss ++ [name], if isDir name (beneath ss ds) then .dir else .file, attrsOf name (beneath ss ds)⟩

theorem segments_of_declared? {d : Declaration} (h : declared? ss ds = some d) : d.segments = ss := by
  simpa using (List.mem_filter.1 (List.mem_of_getLast? h)).2

theorem mem_names_iff_settled? :
    name ∈ names (beneath ss ds) ↔ settled? (ss ++ [name]) ds ≠ none := by
  rw [mem_names_beneath, ne_eq, settled?_eq_none_iff]
  push Not
  refine exists_congr fun d => and_congr_right fun _ => exists_congr fun rest => ?_
  rw [List.append_assoc, List.singleton_append, eq_comm]

theorem eq_child {d : Declaration} (h : settled? (ss ++ [name]) ds = some d) :
    d = child ss ds name := by
  rw [child, attrsOf_beneath_eq, isDir_beneath_eq]
  by_cases hreaches : Reaches (ss ++ [name]) ds
  · rw [settled?_of_reaches hreaches] at h
    cases hd : declared? (ss ++ [name]) ds with
    | none => simp_all [asDirectory]
    | some e =>
      have hsegments := segments_of_declared? hd
      obtain ⟨_, kind, _⟩ := e
      cases kind <;> simp_all [asDirectory, Option.filter_some]
  · rw [settled?_of_not_reaches hreaches] at h
    have hsegments := segments_of_declared? h
    obtain ⟨_, kind, _⟩ := d
    cases kind <;> simp_all

theorem settled?_child : settled? (ss ++ [name]) ds =
    if name ∈ names (beneath ss ds) then some (child ss ds name) else none := by
  cases h : settled? (ss ++ [name]) ds with
  | none => simp [mem_names_iff_settled?, h]
  | some d => simp [mem_names_iff_settled?, h, eq_child h]

theorem IsProper.mem_settled_iff {d : Draft} (h : d.IsProper) {s : Declaration} :
    s ∈ d.settled ↔ s.segments ≠ [] ∧ d.at? s.segments = some s := by
  constructor
  · intro hs
    refine ⟨h.ne_nil s hs, ?_⟩
    obtain ⟨t, ht⟩ := Option.ne_none_iff_exists'.1 fun hnone => (at?_eq_none_iff d _).1 hnone s hs rfl
    have hsegments : t.segments = s.segments := by simpa using List.find?_some ht
    rw [ht, List.inj_on_of_nodup_map h.nodup (List.mem_of_find?_eq_some ht) hs hsegments]
  · exact fun hs => List.mem_of_find?_eq_some hs.2

section

variable (ss ds name)

@[simp] theorem segments_child : (child ss ds name).segments = ss ++ [name] := rfl

@[simp] theorem label_child : (child ss ds name).label =
    ⟨name, Path.join (ss ++ [name]), attrsOf name (beneath ss ds)⟩ := by
  simp [child, label, path]

@[simp] theorem kind_child : (child ss ds name).kind =
    if isDir name (beneath ss ds) then .dir else .file := rfl

theorem child_injective : Function.Injective (child ss ds) := fun m n h => by
  simpa using congrArg (·.label.name) h

end

theorem pairwise_children (d : Draft) (ss : List String) :
    (d.children ss).Pairwise fun s t => standsBefore s t = true := by
  refine List.pairwise_mergeSort (fun s t u => ?_) (fun s t => ?_) _
  · cases hs : s.kind <;> cases ht : t.kind <;> cases hu : u.kind <;>
      simp [standsBefore, hs, ht, hu]
    all_goals exact String.le_trans
  · cases hs : s.kind <;> cases ht : t.kind <;> simp [standsBefore, hs, ht]
    all_goals exact String.le_total _ _

theorem standsBefore_antisymm {s t : Declaration} (hst : standsBefore s t = true)
    (hts : standsBefore t s = true) : s.label.name = t.label.name := by
  cases hs : s.kind <;> cases ht : t.kind <;> simp [standsBefore, hs, ht] at hst hts
  all_goals exact String.le_antisymm hst hts

theorem standsBefore_child {depth : Nat} {above m n : String}
    (h : (Tree.nodeAt depth above (beneath ss ds) m).Before
      (Tree.nodeAt depth above (beneath ss ds) n)) :
    standsBefore (child ss ds m) (child ss ds n) = true := by
  obtain ⟨hdir, hlt, -⟩ := h
  simp only [Tree.isDir_nodeAt, Tree.label_nodeAt] at hdir hlt
  by_cases hkind : isDir m (beneath ss ds) = isDir n (beneath ss ds)
  · simpa [standsBefore, hkind] using String.not_lt.1 (String.lt_asymm (hlt hkind))
  · cases hm : isDir m (beneath ss ds) <;> cases hn : isDir n (beneath ss ds) <;>
      simp_all [standsBefore]

namespace Follows

variable {d : Draft} (h : d.Follows ds)
include h

theorem exists_mem_iff (hss : ss ≠ []) :
    (∃ s ∈ d.settled, s.segments = ss) ↔ ∃ e ∈ ds, ss <+: e.segments := by
  rw [← not_iff_not]
  push Not
  rw [← settled?_eq_none_iff, ← h.at?_eq ss hss, at?_eq_none_iff]

theorem mem_children {s : Declaration} :
    s ∈ d.children ss ↔ ∃ name ∈ names (beneath ss ds), s = child ss ds name := by
  rw [children, List.mem_mergeSort, List.mem_filter, decide_eq_true_iff, h.mem_settled_iff]
  have hat (name : String) : d.at? (ss ++ [name]) =
      if name ∈ names (beneath ss ds) then some (child ss ds name) else none := by
    rw [h.at?_eq _ (by simp), settled?_child]
  constructor
  · rintro ⟨⟨hne, hs⟩, rfl⟩
    rw [← List.dropLast_append_getLast hne, hat] at hs
    split at hs
    · next hname => exact ⟨_, hname, (Option.some.inj hs).symm⟩
    · cases hs
  · rintro ⟨name, hname, rfl⟩
    rw [segments_child, hat, if_pos hname]
    simp

theorem children_eq (ss : List String) : d.children ss =
    ((names (beneath ss ds)).filter (isDir · (beneath ss ds)) ++
      (names (beneath ss ds)).filter (!isDir · (beneath ss ds))).map (child ss ds) := by
  have hnodup : (d.children ss).Nodup :=
    (List.mergeSort_perm _ _).nodup_iff.2 ((List.Nodup.of_map _ h.nodup).filter _)
  have hordered := Tree.ordered_nodes_level 0 "" (beneath ss ds)
  rw [Tree.nodes_level, ← List.map_append, List.pairwise_map] at hordered
  have hnames := List.filter_append_perm (isDir · (beneath ss ds)) (names (beneath ss ds))
  have hnodup' := (hnames.nodup_iff.2 (TextSet.nodup _)).map (child_injective ss ds)
  refine List.Perm.eq_of_pairwise (fun s t hs ht hst hts => ?_) (pairwise_children d ss)
    (List.pairwise_map.2 (hordered.imp standsBefore_child))
    ((List.perm_ext_iff_of_nodup hnodup hnodup').2 fun s => ?_)
  · -- of two children of one name there is but one
    obtain ⟨m, -, rfl⟩ := h.mem_children.1 hs
    obtain ⟨n, -, rfl⟩ := List.mem_map.1 ht
    have hname := standsBefore_antisymm hst hts
    rw [label_child, label_child] at hname
    exact congrArg _ hname
  · rw [h.mem_children, List.mem_map]
    simp only [hnames.mem_iff, eq_comm]

theorem level_eq (depth : Nat) {above : String}
    (habove : ∀ name, above ++ name = Path.join (ss ++ [name])) :
    d.level depth ss = Tree.level depth above (beneath ss ds) := by
  induction depth generalizing ss above with
  | zero => rfl
  | succ depth ih =>
    have hnext (name : String) : d.level depth (ss ++ [name]) =
        Tree.level depth (above ++ name ++ "/") (below name (beneath ss ds)) := by
      rw [below_beneath]
      refine ih fun next => ?_
      rw [Path.join_append (by simp) (by simp), habove, Path.join_singleton]
    rw [level, h.children_eq, List.foldr_map, List.foldr_append, Tree.level,
      List.partition_eq_filter_filter]
    refine (List.foldr_ext _ _ _ fun name hname rest => ?_).trans
      (congrArg (List.foldr _ · _) (List.foldr_ext _ _ _ fun name hname rest => ?_))
    · have hkind : (child ss ds name).kind = .dir := by
        simpa using (List.mem_filter.1 hname).2
      rw [hkind, label_child, ← habove, segments_child, hnext]
    · have hkind : (child ss ds name).kind = .file := by
        simpa using (List.mem_filter.1 hname).2
      rw [hkind, label_child, ← habove]

theorem depth_settled : Declaration.depth d.settled = Declaration.depth ds := by
  refine le_antisymm (depth_le_iff.2 fun s hs => ?_) (depth_le_iff.2 fun e he => ?_)
  · obtain ⟨e, he, hpre⟩ := (h.exists_mem_iff (h.ne_nil s hs)).1 ⟨s, hs, rfl⟩
    exact hpre.length_le.trans (depth_le_iff.1 le_rfl e he)
  · by_cases hnil : e.segments = []
    · simp [hnil]
    · obtain ⟨s, hs, heq⟩ := (h.exists_mem_iff hnil).2 ⟨e, he, List.prefix_rfl⟩
      exact heq ▸ depth_le_iff.1 le_rfl s hs

theorem tree_eq : d.tree = Tree.ofDeclarations ds := by
  rw [tree, Tree.ofDeclarations, h.depth_settled]
  exact h.level_eq _ fun name => by simp

end Follows

end Draft

namespace Declaration

variable {ds ds' : List Declaration}

theorem Agree.filter_eq (h : Agree ds ds') (ss : List String) :
    ds.filter (·.segments = ss) = ds'.filter (·.segments = ss) := by
  -- a declaration is its path and its word
  have hwords (ds : List Declaration) : ds.filter (·.segments = ss) =
      ((ds.filter (·.segments = ss)).map word).map fun w => ⟨ss, w.1, w.2⟩ := by
    rw [List.map_map]
    refine (List.map_id'' (fun d => rfl) _).symm.trans (List.map_congr_left fun d hd => ?_)
    obtain rfl : d.segments = ss := by simpa using (List.mem_filter.1 hd).2
    rfl
  rw [hwords ds, hwords ds', h ss]

theorem eq_of_pairwise_path (hds : ∀ d ∈ ds, Draft.IsWay d.segments)
    (hds' : ∀ d ∈ ds', Draft.IsWay d.segments) (hle : ds.Pairwise fun d e => d.path ≤ e.path)
    (hle' : ds'.Pairwise fun d e => d.path ≤ e.path)
    (h : ∀ ss, ds.filter (·.segments = ss) = ds'.filter (·.segments = ss)) : ds = ds' := by
  induction ds generalizing ds' with
  | nil =>
    cases ds' with
    | nil => rfl
    | cons d' ds' => simpa using h d'.segments
  | cons d ds ih =>
    cases ds' with
    | nil => simpa using h d.segments
    | cons d' ds' =>
      rw [List.forall_mem_cons] at hds hds'
      rw [List.pairwise_cons] at hle hle'
      -- the first of each is among the other
      have hd : d ∈ d' :: ds' := by
        have hmem : d ∈ (d :: ds).filter (·.segments = d.segments) := by simp
        exact (List.mem_filter.1 (h d.segments ▸ hmem)).1
      have hd' : d' ∈ d :: ds := by
        have hmem : d' ∈ (d' :: ds').filter (·.segments = d'.segments) := by simp
        exact (List.mem_filter.1 (h d'.segments ▸ hmem)).1
      have hfirst : d.path ≤ d'.path := by
        rcases List.mem_cons.1 hd' with rfl | hd'
        · exact String.le_refl _
        · exact hle.1 d' hd'
      have hfirst' : d'.path ≤ d.path := by
        rcases List.mem_cons.1 hd with rfl | hd
        · exact String.le_refl _
        · exact hle'.1 d hd
      have hsame : d.segments = d'.segments :=
        (hds.1.join_inj hds'.1).1 (String.le_antisymm hfirst hfirst')
      obtain rfl : d = d' := by
        have hhead := h d.segments
        simp only [List.filter_cons, hsame, decide_true, if_true] at hhead
        exact (List.cons.inj hhead).1
      refine congrArg _ (ih hds.2 hds'.2 hle.2 hle'.2 fun ss => ?_)
      have htail := h ss
      by_cases hss : d.segments = ss
      · simpa [hss] using htail
      · simpa [hss] using htail

theorem Agree.sorted_eq {es es' : List Entry} (h : Agree (ofEntries es) (ofEntries es')) :
    sorted (ofEntries es) = sorted (ofEntries es') :=
  eq_of_pairwise_path (topDown_sorted es).isWay (topDown_sorted es').isWay (pairwise_sorted _)
    (pairwise_sorted _) fun ss => by rw [filter_sorted, filter_sorted, h.filter_eq]

end Declaration

namespace Entry

theorem declaring_eq_of_perm {es es' : List Entry} (hperm : es.Perm es')
    (hnodup : (es.filterMap fun e => Path.normalize e.path).Nodup) (p : String) :
    declaring p es = declaring p es' := by
  have hlen : (declaring p es).length ≤ 1 := by
    have hcount := List.nodup_iff_count_le_one.1 hnodup p
    rw [List.count, List.countP_filterMap] at hcount
    refine le_of_eq_of_le ?_ hcount
    rw [declaring, ← List.countP_eq_length_filter]
    refine List.countP_congr fun e _ => ?_
    cases Path.normalize e.path <;> simp
  have hsame : (declaring p es).Perm (declaring p es') := hperm.filter _
  cases hes : declaring p es with
  | nil => exact (hes ▸ hsame).nil_eq
  | cons e rest =>
    obtain rfl : rest = [] := by simpa [hes] using hlen
    exact (hes ▸ hsame).singleton_eq

end Entry

namespace Tree

/-- Insertion makes the tree. -/
theorem tree_ofDeclarations (ws : List Warning) (es : List Entry) :
    (Draft.ofDeclarations ws (sorted (Declaration.ofEntries es))).tree = ofEntries es := by
  have hagree : Agree (sorted (Declaration.ofEntries es)) (Declaration.ofEntries es) :=
    fun ss => by rw [filter_sorted]
  rw [(Draft.follows_ofDeclarations ws (topDown_sorted es)).tree_eq,
    ofDeclarations_congr hagree, ofEntries]

/-- The order of a listing matters only among the entries for one path. In any order that keeps
those, and in any order at all if no path has two entries, the same is inserted one by one, and the
tree is the same. -/
theorem ofEntries_perm {es es' : List Entry} (hperm : es.Perm es')
    (h : (∀ p, Entry.declaring p es = Entry.declaring p es') ∨
      (es.filterMap fun e => Path.normalize e.path).Nodup) :
    sorted (Declaration.ofEntries es) = sorted (Declaration.ofEntries es') ∧
      ofEntries es = ofEntries es' := by
  have hdeclaring : ∀ p, Entry.declaring p es = Entry.declaring p es' :=
    h.elim id fun hnodup => Entry.declaring_eq_of_perm hperm hnodup
  have hsorted := (agree_ofEntries hdeclaring).sorted_eq
  exact ⟨hsorted, by rw [← tree_ofDeclarations [] es, hsorted, tree_ofDeclarations]⟩

theorem ofEntries_perm_between :
    let es : List Entry := [⟨"a", .file, ⟨7, true, false⟩⟩, ⟨"./a/", .dir, ⟨0, false, true⟩⟩,
      ⟨"a/b.md", .file, ⟨3, false, false⟩⟩]
    let es' : List Entry := [⟨"a", .file, ⟨7, true, false⟩⟩, ⟨"a/b.md", .file, ⟨3, false, false⟩⟩,
      ⟨"./a/", .dir, ⟨0, false, true⟩⟩]
    es.Perm es' ∧ (∀ p, Entry.declaring p es = Entry.declaring p es') ∧
      sorted (Declaration.ofEntries es) = sorted (Declaration.ofEntries es') ∧
        ofEntries es = ofEntries es' := by
  intro es es'
  have hperm : es.Perm es' := .cons _ (.swap _ _ _)
  have hdeclaring (p : String) : Entry.declaring p es = Entry.declaring p es' := by
    have ha : Path.normalize "a" = some "a" := by decide +kernel
    have ha' : Path.normalize "./a/" = some "a" := by decide +kernel
    have hb : Path.normalize "a/b.md" = some "a/b.md" := by decide +kernel
    simp only [Entry.declaring, es, es', List.filter_cons, ha, ha', hb]
    by_cases hp : p = "a" <;> simp [hp, eq_comm]
  exact ⟨hperm, hdeclaring, ofEntries_perm hperm (.inl hdeclaring)⟩

end Tree

end TreeSelection
