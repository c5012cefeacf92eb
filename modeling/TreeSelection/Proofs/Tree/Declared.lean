import TreeSelection.Proofs.Tree.Level

/-!
What a tree says of a listing. A built tree has one node for each path that some entry names or
leads below; its kind and attributes are those of the last word on the path.
-/

namespace TreeSelection

namespace Declaration

def word (d : Declaration) : Kind × Attrs := (d.kind, d.attrs)

def beneath (ss : List String) (ds : List Declaration) : List Declaration :=
  ss.foldl (fun ds name => below name ds) ds

@[simp] theorem beneath_nil (ds : List Declaration) : beneath [] ds = ds := rfl

@[simp] theorem beneath_cons (s : String) (ss : List String) (ds : List Declaration) :
    beneath (s :: ss) ds = beneath ss (below s ds) := rfl

theorem exists_mem_beneath {ss rest : List String} {ds : List Declaration} (hrest : rest ≠ []) :
    (∃ d ∈ beneath ss ds, d.segments = rest) ↔ ∃ d ∈ ds, d.segments = ss ++ rest := by
  induction ss generalizing ds with
  | nil => rfl
  | cons s ss ih =>
    rw [beneath_cons, ih]
    constructor
    · rintro ⟨d, hd, heq⟩
      exact ⟨_, (mem_below.1 hd).2, by simp [heq]⟩
    · rintro ⟨⟨_, kind, attrs⟩, hd, rfl⟩
      exact ⟨⟨ss ++ rest, kind, attrs⟩, mem_below.2 ⟨by simp [hrest], hd⟩, rfl⟩

theorem mem_names_beneath {ss : List String} {name : String} {ds : List Declaration} :
    name ∈ names (beneath ss ds) ↔ ∃ d ∈ ds, ∃ rest, d.segments = ss ++ name :: rest := by
  rw [mem_names]
  constructor
  · rintro ⟨d, hd, hhead⟩
    obtain ⟨rest, hrest⟩ := List.head?_eq_some_iff.1 hhead
    obtain ⟨d', hd', heq⟩ := (exists_mem_beneath (by simp)).1 ⟨d, hd, hrest⟩
    exact ⟨d', hd', rest, heq⟩
  · rintro ⟨d, hd, rest, heq⟩
    obtain ⟨d', hd', hrest⟩ := (exists_mem_beneath (by simp)).2 ⟨d, hd, heq⟩
    exact ⟨d', hd', by simp [hrest]⟩

theorem words_below {name : String} {ss : List String} (hss : ss ≠ []) (ds : List Declaration) :
    ((below name ds).filter (·.segments = ss)).map word =
      (ds.filter (·.segments = name :: ss)).map word := by
  induction ds with
  | nil => rfl
  | cons d ds ih =>
    simp only [below] at ih ⊢
    cases h : below? name d with
    | none =>
      have hne : d.segments ≠ name :: ss := fun heq => by
        have hsome : below? name d = some { d with segments := ss } :=
          below?_eq_some_iff.2 ⟨hss, by simp [← heq]⟩
        rw [h] at hsome
        cases hsome
      rw [List.filterMap_cons_none h, List.filter_cons_of_neg (by simpa using hne), ih]
    | some d' =>
      rw [List.filterMap_cons_some h]
      obtain ⟨-, rfl⟩ := below?_eq_some_iff.1 h
      by_cases heq : d'.segments = ss <;> simp [heq, ih, word]

theorem words_beneath {ss rest : List String} (hrest : rest ≠ []) (ds : List Declaration) :
    ((beneath ss ds).filter (·.segments = rest)).map word =
      (ds.filter (·.segments = ss ++ rest)).map word := by
  induction ss generalizing ds with
  | nil => rfl
  | cons s ss ih => rw [beneath_cons, ih, words_below (by simp [hrest]), List.cons_append]

theorem word_last?_beneath (ss : List String) (name : String) (ds : List Declaration) :
    (last? name (beneath ss ds)).map word =
      (ds.filter (·.segments = ss ++ [name])).getLast?.map word := by
  rw [last?, ← List.getLast?_map, ← List.getLast?_map, words_beneath (by simp)]

theorem below_beneath (name : String) (ss : List String) (ds : List Declaration) :
    below name (beneath ss ds) = beneath (ss ++ [name]) ds := by
  simp [beneath]

theorem isDir_beneath_iff {ss : List String} {name : String} {ds : List Declaration} :
    isDir name (beneath ss ds) = true ↔
      (∃ d ∈ ds, ∃ rest, rest ≠ [] ∧ d.segments = (ss ++ [name]) ++ rest) ∨
        (last? name (beneath ss ds)).any (·.kind = .dir) = true := by
  rw [isDir, Bool.or_eq_true]
  refine or_congr_left ?_
  have hbelow : (!(below name (beneath ss ds)).isEmpty) = true ↔
      ∃ d, d ∈ below name (beneath ss ds) := by
    rw [Bool.not_eq_true', List.isEmpty_eq_false_iff_exists_mem]
  rw [hbelow]
  constructor
  · rintro ⟨d, hd⟩
    have hne := (mem_below.1 hd).1
    rw [below_beneath] at hd
    obtain ⟨d', hd', heq⟩ := (exists_mem_beneath hne).1 ⟨d, hd, rfl⟩
    exact ⟨d', hd', _, hne, heq⟩
  · rintro ⟨d, hd, rest, hrest, heq⟩
    obtain ⟨d', hd', -⟩ := (exists_mem_beneath hrest).2 ⟨d, hd, heq⟩
    exact ⟨d', by rwa [below_beneath]⟩

end Declaration

namespace Entry

def word (e : Entry) : Kind × Attrs := (e.kind, e.attrs)

def declaring (path : String) (es : List Entry) : List Entry :=
  es.filter fun e => Path.normalize e.path = some path

def LeadsBelow (path : String) (es : List Entry) : Prop :=
  ∃ e ∈ es, ∃ p, Path.normalize e.path = some p ∧ Path.IsBelow path p

def last? (path : String) (es : List Entry) : Option Entry := (declaring path es).getLast?

end Entry

namespace Declaration

theorem mem_ofEntries {es : List Entry} {d : Declaration} :
    d ∈ ofEntries es ↔
      ∃ e ∈ es, Path.segments? e.path = some d.segments ∧ e.word = d.word := by
  obtain ⟨segments, kind, attrs⟩ := d
  simp only [ofEntries, List.mem_filterMap, ofEntry?, Option.map_eq_some_iff, mk.injEq, Entry.word,
    word, Prod.mk.injEq]
  constructor
  · rintro ⟨e, he, ss, hss, rfl, hword⟩
    exact ⟨e, he, hss, hword⟩
  · rintro ⟨e, he, hss, hword⟩
    exact ⟨e, he, _, hss, rfl, hword⟩

theorem proper_ofEntries (es : List Entry) : Proper (depth (ofEntries es)) (ofEntries es) where
  ne_nil d hd := by
    obtain ⟨e, -, hseg, -⟩ := mem_ofEntries.1 hd
    exact (Path.segments?_eq_some hseg).1
  isName d hd := by
    obtain ⟨e, -, hseg, -⟩ := mem_ofEntries.1 hd
    exact (Path.segments?_eq_some hseg).2
  length_le d hd := by
    generalize ofEntries es = ds at hd ⊢
    induction ds with
    | nil => cases hd
    | cons d' ds ih =>
      simp only [depth, List.foldr_cons]
      rcases List.mem_cons.1 hd with rfl | hd
      · exact Nat.le_max_left _ _
      · exact Nat.le_trans (ih hd) (Nat.le_max_right _ _)

theorem words_ofEntries {ss : List String} (hss : ss ≠ []) (h : ∀ s ∈ ss, Path.IsName s)
    (es : List Entry) : ((ofEntries es).filter (·.segments = ss)).map word =
      (Entry.declaring (Path.join ss) es).map Entry.word := by
  induction es with
  | nil => rfl
  | cons e es ih =>
    simp only [ofEntries, Entry.declaring] at ih ⊢
    cases he : Path.segments? e.path with
    | none =>
      rw [List.filterMap_cons_none (by simp [he, ofEntry?]), ih,
        List.filter_cons_of_neg (by simp [Path.normalize, he])]
    | some ts =>
      rw [List.filterMap_cons_some (b := ⟨ts, e.kind, e.attrs⟩) (by simp [he, ofEntry?])]
      obtain ⟨hts, hts'⟩ := Path.segments?_eq_some he
      have hiff : Path.join ts = Path.join ss ↔ ts = ss :=
        ⟨Path.join_injective hts hts' hss h, congrArg _⟩
      by_cases heq : ts = ss <;> simp [heq, he, Path.normalize, hiff, ih, word, Entry.word]

theorem leadsBelow_iff {ss : List String} (hss : ss ≠ []) (h : ∀ s ∈ ss, Path.IsName s)
    {es : List Entry} : Entry.LeadsBelow (Path.join ss) es ↔
      ∃ d ∈ ofEntries es, ∃ rest, rest ≠ [] ∧ d.segments = ss ++ rest := by
  constructor
  · rintro ⟨e, he, p, hp, hbelow⟩
    obtain ⟨ts, hts, rfl⟩ := Path.normalize_eq_some_iff.1 hp
    obtain ⟨hne, hnames⟩ := Path.segments?_eq_some hts
    obtain ⟨us, rest, hus, hrest, rfl, hjoin⟩ := (Path.isBelow_join_iff hne hnames).1 hbelow
    have husn : ∀ u ∈ us, Path.IsName u := fun u hu => hnames u (List.mem_append_left _ hu)
    obtain rfl := Path.join_injective hss h hus husn hjoin
    exact ⟨⟨ss ++ rest, e.kind, e.attrs⟩, mem_ofEntries.2 ⟨e, he, hts, rfl⟩, rest, hrest, rfl⟩
  · rintro ⟨d, hd, rest, hrest, heq⟩
    obtain ⟨e, he, hseg, -⟩ := mem_ofEntries.1 hd
    obtain ⟨hne, hnames⟩ := Path.segments?_eq_some hseg
    exact ⟨e, he, _, Path.normalize_eq_some_iff.2 ⟨_, hseg, rfl⟩,
      (Path.isBelow_join_iff hne hnames).2 ⟨ss, rest, hss, hrest, heq, rfl⟩⟩

theorem word_last?_ofEntries {ss : List String} {name : String}
    (h : ∀ s ∈ ss ++ [name], Path.IsName s) (es : List Entry) :
    (last? name (beneath ss (ofEntries es))).map word =
      (Entry.last? (Path.join (ss ++ [name])) es).map Entry.word := by
  rw [word_last?_beneath, ← List.getLast?_map, words_ofEntries (by simp) h, List.getLast?_map,
    Entry.last?]

theorem declares_iff {es : List Entry} {p : String} :
    (∃ e ∈ es, Path.normalize e.path = some p) ∨ Entry.LeadsBelow p es ↔
      ∃ d ∈ ofEntries es, ∃ ss rest, ss ≠ [] ∧ d.segments = ss ++ rest ∧ p = Path.join ss := by
  constructor
  · rintro (⟨e, he, hp⟩ | ⟨e, he, q, hq, hbelow⟩)
    · obtain ⟨ss, hss, rfl⟩ := Path.normalize_eq_some_iff.1 hp
      have hne := (Path.segments?_eq_some hss).1
      exact ⟨⟨ss, e.kind, e.attrs⟩, mem_ofEntries.2 ⟨e, he, hss, rfl⟩, ss, [], hne, by simp, rfl⟩
    · obtain ⟨ts, hts, rfl⟩ := Path.normalize_eq_some_iff.1 hq
      obtain ⟨hne, hnames⟩ := Path.segments?_eq_some hts
      obtain ⟨ss, rest, hss, -, rfl, rfl⟩ := (Path.isBelow_join_iff hne hnames).1 hbelow
      exact ⟨⟨ss ++ rest, e.kind, e.attrs⟩, mem_ofEntries.2 ⟨e, he, hts, rfl⟩, ss, rest, hss, rfl,
        rfl⟩
  · rintro ⟨d, hd, ss, rest, hss, heq, rfl⟩
    obtain ⟨e, he, hseg, -⟩ := mem_ofEntries.1 hd
    have hnames := (Path.segments?_eq_some hseg).2
    by_cases hrest : rest = []
    · exact .inl ⟨e, he, Path.normalize_eq_some_iff.2 ⟨_, hseg, by simp [heq, hrest]⟩⟩
    · refine .inr ((leadsBelow_iff hss fun s hs => ?_).2 ⟨d, hd, rest, hrest, heq⟩)
      exact hnames s (heq ▸ List.mem_append_left _ hs)

end Declaration

namespace Tree

open Declaration

theorem eq_of_mem_allNodes_level {depth : Nat} {above : String} {ds : List Declaration} {n : Node}
    (hn : n ∈ (level depth above ds).allNodes) :
    ∃ ss name, name ∈ names (beneath ss ds) ∧
      n.label.path = above ++ Path.join (ss ++ [name]) ∧
      n.label.attrs = attrsOf name (beneath ss ds) ∧ n.isDir = isDir name (beneath ss ds) := by
  induction depth generalizing above ds with
  | zero => simp [level, allNodes] at hn
  | succ depth ih =>
    obtain ⟨m, hm, hn⟩ := mem_allNodes.1 hn
    obtain ⟨name, hname, rfl⟩ := (mem_nodes_level depth above ds).1 hm
    rcases hn with rfl | hn
    · exact ⟨[], name, hname, by simp⟩
    · rw [children_nodeAt] at hn
      obtain ⟨ss, last, hlast, hpath, hattrs, hdir⟩ := ih hn
      refine ⟨name :: ss, last, hlast, ?_, hattrs, hdir⟩
      rw [hpath, List.cons_append, Path.join_cons _ (by simp)]
      simp only [String.append_assoc]

theorem exists_mem_allNodes_level {depth : Nat} (above : String) {ds : List Declaration}
    (h : Proper depth ds) {ss : List String} {name : String}
    (hname : name ∈ names (beneath ss ds)) :
    ∃ n ∈ (level depth above ds).allNodes, n.label.path = above ++ Path.join (ss ++ [name]) := by
  obtain ⟨d, hd, rest, hsegments⟩ := mem_names_beneath.1 hname
  obtain ⟨depth, rfl⟩ : ∃ k, depth = k + 1 := Nat.exists_eq_add_one.2 <| by
    have := h.length_le d hd
    simp [hsegments] at this
    omega
  cases ss with
  | nil =>
    have hmem := (mem_nodes_level depth above ds).2 ⟨name, hname, rfl⟩
    exact ⟨_, mem_allNodes.2 ⟨_, hmem, .inl rfl⟩, by simp⟩
  | cons s ss =>
    have hs : s ∈ names ds := mem_names.2 ⟨d, hd, by simp [hsegments]⟩
    have hmem := (mem_nodes_level depth above ds).2 ⟨s, hs, rfl⟩
    obtain ⟨n, hn, hpath⟩ := exists_mem_allNodes_level (above ++ s ++ "/") (h.below s) hname
    refine ⟨n, mem_allNodes.2 ⟨_, hmem, .inr (by simpa using hn)⟩, ?_⟩
    rw [hpath, List.cons_append, Path.join_cons _ (by simp)]
    simp only [String.append_assoc]

/-- The tree has one node for each path that an entry of the listing is for or leads below. The
last entry for a path, if there is one, settles what the node is, except that a path with something
below it is a directory. -/
structure Describes (t : Tree) (es : List Entry) : Prop where
  nodup_paths : t.paths.Nodup
  mem_paths_iff : ∀ p, p ∈ t.paths ↔
    (∃ e ∈ es, Path.normalize e.path = some p) ∨ Entry.LeadsBelow p es
  kind_eq_dir_iff : ∀ n ∈ t.allNodes, n.kind = .dir ↔
    Entry.LeadsBelow n.label.path es ∨ ∃ e, Entry.last? n.label.path es = some e ∧ e.kind = .dir
  attrs_eq : ∀ n ∈ t.allNodes, n.label.attrs =
    match Entry.last? n.label.path es with
    | some e => if e.kind = n.kind then e.attrs else {}
    | none => {}

theorem mem_paths_ofEntries {es : List Entry} {p : String} : p ∈ (ofEntries es).paths ↔
    ∃ d ∈ Declaration.ofEntries es, ∃ ss rest, ss ≠ [] ∧ d.segments = ss ++ rest ∧
      p = Path.join ss := by
  rw [paths, List.mem_map]
  constructor
  · rintro ⟨n, hn, rfl⟩
    obtain ⟨ss, name, hname, hpath, -⟩ := eq_of_mem_allNodes_level hn
    obtain ⟨d, hd, rest, heq⟩ := mem_names_beneath.1 hname
    exact ⟨d, hd, ss ++ [name], rest, by simp, by simp [heq], by simpa using hpath⟩
  · rintro ⟨d, hd, ss, rest, hss, heq, rfl⟩
    obtain ⟨ss, name, rfl⟩ := (List.eq_nil_or_concat' ss).resolve_left hss
    have hname : name ∈ names (beneath ss (Declaration.ofEntries es)) :=
      mem_names_beneath.2 ⟨d, hd, rest, by simp [heq]⟩
    obtain ⟨n, hn, hpath⟩ := exists_mem_allNodes_level "" (proper_ofEntries es) hname
    exact ⟨n, hn, by simpa using hpath⟩

theorem eq_of_mem_allNodes_ofEntries {es : List Entry} {n : Node}
    (hn : n ∈ (ofEntries es).allNodes) : ∃ ss name, (∀ s ∈ ss ++ [name], Path.IsName s) ∧
      n.label.path = Path.join (ss ++ [name]) ∧
      n.label.attrs = attrsOf name (beneath ss (Declaration.ofEntries es)) ∧
      n.isDir = isDir name (beneath ss (Declaration.ofEntries es)) := by
  obtain ⟨ss, name, hname, hpath, hattrs, hdir⟩ := eq_of_mem_allNodes_level hn
  obtain ⟨d, hd, rest, heq⟩ := mem_names_beneath.1 hname
  refine ⟨ss, name, fun s hs => ?_, by simpa using hpath, hattrs, hdir⟩
  refine (proper_ofEntries es).isName d hd s ?_
  rw [heq, List.append_cons]
  exact List.mem_append_left _ hs

theorem shaped_ofEntries (es : List Entry) : Shaped "" (ofEntries es) :=
  shaped_level (proper_ofEntries es)

theorem normalize_path_of_mem_files {es : List Entry} {l : Label} (hl : l ∈ (ofEntries es).files) :
    Path.normalize l.path = some l.path :=
  (shaped_ofEntries es).normalize_path (mem_files.1 hl)

theorem normalize_of_mem_filePaths {es : List Entry} {p : String}
    (hp : p ∈ (ofEntries es).filePaths) : Path.normalize p = some p := by
  obtain ⟨l, hl, rfl⟩ := List.mem_map.1 hp
  exact normalize_path_of_mem_files hl

theorem ofEntries_describes (es : List Entry) : (ofEntries es).Describes es where
  nodup_paths := (shaped_ofEntries es).nodup_paths
  mem_paths_iff p := mem_paths_ofEntries.trans declares_iff.symm
  kind_eq_dir_iff n hn := by
    obtain ⟨ss, name, hnames, hpath, -, hdir⟩ := eq_of_mem_allNodes_ofEntries hn
    have hword := word_last?_ofEntries hnames es
    rw [← Node.isDir_eq_true_iff, hdir, isDir_beneath_iff, hpath, leadsBelow_iff (by simp) hnames]
    refine or_congr_right ?_
    cases hd : last? name (beneath ss (Declaration.ofEntries es)) <;>
      cases he : Entry.last? (Path.join (ss ++ [name])) es <;>
      simp_all [word, Entry.word]
  attrs_eq n hn := by
    obtain ⟨ss, name, hnames, hpath, hattrs, hdir⟩ := eq_of_mem_allNodes_ofEntries hn
    have hword := word_last?_ofEntries hnames es
    have hkind (k : Kind) : ((k = .dir) = (n.isDir = true)) ↔ k = n.kind := by
      cases k <;> cases n <;> simp [Node.isDir, Node.kind]
    rw [hattrs, hpath, attrsOf, ← hdir]
    simp only [hkind]
    cases hd : last? name (beneath ss (Declaration.ofEntries es)) <;>
      cases he : Entry.last? (Path.join (ss ++ [name])) es <;>
      simp_all [word, Entry.word]

end Tree

end TreeSelection
