import TreeSelection.Proofs.Tree.Below

namespace TreeSelection.Tree

theorem lookup_cons (t : Tree) (s : String) (ss : List String) : t.lookup (s :: ss) =
    (t.nodes.find? (·.label.name = s)).bind fun n =>
      if ss = [] then some n else n.children.lookup ss := by
  induction t with
  | nil => rfl
  | file l rest ih =>
    by_cases h : l.name = s
    · by_cases hss : ss = [] <;> simp [lookup, nodes, Node.label, Node.children, h, hss]
    · simp [lookup, nodes, Node.label, h, Ne.symm h, ih]
  | dir l children rest _ ih =>
    by_cases h : l.name = s
    · by_cases hss : ss = [] <;> simp [lookup, nodes, Node.label, Node.children, h, hss]
    · simp [lookup, nodes, Node.label, h, Ne.symm h, ih]

variable {above : String} {t : Tree}

theorem lookup_nil (t : Tree) : t.lookup [] = none := by
  induction t with
  | nil => rfl
  | file l rest ih => simpa [lookup] using ih
  | dir l children rest _ ih => simpa [lookup] using ih

theorem Shaped.find?_nodes (h : Shaped above t) {n : Node} (hn : n ∈ t.nodes) :
    t.nodes.find? (·.label.name = n.label.name) = some n := by
  have hne : t.nodes.Pairwise fun m n => m.label.name ≠ n.label.name :=
    h.ordered.imp Node.Before.name_ne
  generalize t.nodes = ns at hn hne
  induction ns with
  | nil => cases hn
  | cons m ns ih =>
    obtain ⟨hm, hns⟩ := List.pairwise_cons.1 hne
    rcases List.mem_cons.1 hn with rfl | hn
    · simp
    · rw [List.find?_cons_of_neg (by simpa using hm n hn)]
      exact ih hn hns

theorem Shaped.of_lookup (h : Shaped above t) {ss : List String} {n : Node}
    (hlookup : t.lookup ss = some n) : n ∈ t.allNodes ∧ n.label.path = above ++ Path.join ss := by
  induction ss generalizing above t with
  | nil => simp [lookup_nil] at hlookup
  | cons s ss ih =>
    rw [lookup_cons, Option.bind_eq_some_iff] at hlookup
    obtain ⟨m, hfind, hlookup⟩ := hlookup
    have hm : m ∈ t.nodes := List.mem_of_find?_eq_some hfind
    have hname : m.label.name = s := by simpa using List.find?_some hfind
    have hpath : m.label.path = above ++ s := hname ▸ (h.named m hm).path_eq
    split at hlookup
    · next hss =>
      obtain rfl := Option.some.inj hlookup
      exact ⟨mem_allNodes.2 ⟨m, hm, .inl rfl⟩, by simpa [hss] using hpath⟩
    · next hss =>
      have hshaped := h.children_of_mem_allNodes (mem_allNodes.2 ⟨m, hm, .inl rfl⟩)
      obtain ⟨hn, hbelow⟩ := ih hshaped hlookup
      refine ⟨mem_allNodes.2 ⟨m, hm, .inr hn⟩, ?_⟩
      rw [hbelow, hpath, Path.join_cons s hss]
      simp only [String.append_assoc]

theorem Shaped.lookup_of_mem (h : Shaped above t) {n : Node} (hn : n ∈ t.allNodes) :
    ∃ ss, ss ≠ [] ∧ (∀ s ∈ ss, Path.IsName s) ∧ n.label.path = above ++ Path.join ss ∧
      t.lookup ss = some n := by
  induction h with
  | @level above t named ordered below ih =>
    have h : Shaped above t := .level named ordered below
    obtain ⟨m, hm, hn⟩ := mem_allNodes.1 hn
    have hname := (named m hm).isName
    have hpath := (named m hm).path_eq
    rcases hn with rfl | hn
    · exact ⟨[n.label.name], by simp, by simpa using hname, by simpa using hpath,
        by simp [lookup_cons, h.find?_nodes hm]⟩
    · obtain ⟨ss, hss, hnames, hbelow, hlookup⟩ := ih m hm hn
      refine ⟨m.label.name :: ss, by simp, by simpa using ⟨hname, hnames⟩, ?_, ?_⟩
      · rw [hbelow, hpath, Path.join_cons _ hss]
        simp only [String.append_assoc]
      · simp [lookup_cons, h.find?_nodes hm, hss, hlookup]

theorem Shaped.find_eq_some_iff (h : Shaped "" t) {p : String} {n : Node} :
    t.find p = some n ↔ n ∈ t.allNodes ∧ Path.normalize p = some n.label.path := by
  rw [find, Option.bind_eq_some_iff, Path.normalize_eq_some_iff]
  constructor
  · rintro ⟨ss, hss, hlookup⟩
    obtain ⟨hn, hpath⟩ := h.of_lookup hlookup
    exact ⟨hn, ss, hss, by simpa using hpath.symm⟩
  · rintro ⟨hn, ss, hss, hjoin⟩
    obtain ⟨ts, hts, hnames, hpath, hlookup⟩ := h.lookup_of_mem hn
    have hss' := Path.segments?_eq_some hss
    have hpath : Path.join ss = Path.join ts := by simpa [hjoin] using hpath
    obtain rfl := Path.join_injective hss'.1 hss'.2 hts hnames hpath
    exact ⟨ss, hss, hlookup⟩

theorem Shaped.any_find_iff (h : Shaped "" t) {p : String} :
    (t.find p).any (!·.isDir) = true ↔ ∃ f ∈ t.filePaths, Path.normalize p = some f := by
  simp only [Option.any_eq_true, h.find_eq_some_iff, filePaths, List.mem_map, mem_files]
  constructor
  · rintro ⟨n, ⟨hn, hp⟩, hfile⟩
    cases n with
    | file l => exact ⟨l.path, ⟨l, hn, rfl⟩, hp⟩
    | dir l children => cases hfile
  · rintro ⟨_, ⟨l, hl, rfl⟩, hp⟩
    exact ⟨.file l, ⟨hl, hp⟩, rfl⟩

end TreeSelection.Tree
