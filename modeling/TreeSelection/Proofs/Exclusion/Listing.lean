import TreeSelection.Proofs.Exclusion
import TreeSelection.Proofs.Tree.Declared

namespace TreeSelection

def Reason.rank : Reason → Nat
  | submodule => 0
  | lfs => 1
  | tooLarge _ _ => 2
  | binary => 3
  | secret => 4

namespace Policy

def Objects (p : Policy) (inSubmodule : Prop) (file : Label) : Reason → Prop
  | .submodule => p.barSubmodules = true ∧ (file.attrs.submodule = true ∨ inSubmodule)
  | .lfs => p.barLfs = true ∧ file.attrs.lfs = true
  | .tooLarge size limit => p.maxSize = some limit ∧ size = file.attrs.size ∧ limit < size
  | .binary => p.barBinary = true ∧ FileType.isBinary file.path = true
  | .secret => False

/-- The reason holds, and no other that holds is looked for before it. -/
structure Bars (p : Policy) (inSubmodule : Prop) (file : Label) (reason : Reason) : Prop where
  objects : p.Objects inSubmodule file reason
  first : ∀ other, p.Objects inSubmodule file other → reason.rank ≤ other.rank

structure BarsFrom (p : Policy) (inSubmodule : Prop) (file : Label) (place : Nat)
    (reason : Reason) : Prop where
  objects : p.Objects inSubmodule file reason
  place_le : place ≤ reason.rank
  first : ∀ other, p.Objects inSubmodule file other → place ≤ other.rank → reason.rank ≤ other.rank

section

variable {p : Policy} {inSubmodule : Prop} {file : Label} {r : Reason} {place : Nat}

theorem barsFrom_zero_iff : p.BarsFrom inSubmodule file 0 r ↔ p.Bars inSubmodule file r where
  mp h := ⟨h.objects, fun other hother => h.first other hother (Nat.zero_le _)⟩
  mpr h := ⟨h.objects, Nat.zero_le _, fun other hother _ => h.first other hother⟩

theorem BarsFrom.of_rank_eq (h : p.Objects inSubmodule file r) (hrank : r.rank = place) :
    p.BarsFrom inSubmodule file place r where
  objects := h
  place_le := hrank.ge
  first _ _ hle := hrank.trans_le hle

theorem barsFrom_succ_iff (h : ∀ other, p.Objects inSubmodule file other → other.rank ≠ place) :
    p.BarsFrom inSubmodule file (place + 1) r ↔ p.BarsFrom inSubmodule file place r := by
  have hsucc (other : Reason) (hother : p.Objects inSubmodule file other)
      (hle : place ≤ other.rank) : place + 1 ≤ other.rank :=
    Nat.lt_of_le_of_ne hle (h other hother).symm
  constructor
  · rintro ⟨hobjects, hplace, hfirst⟩
    exact ⟨hobjects, Nat.le_of_succ_le hplace, fun other hother hle =>
      hfirst other hother (hsucc other hother hle)⟩
  · rintro ⟨hobjects, hplace, hfirst⟩
    exact ⟨hobjects, hsucc r hobjects hplace, fun other hother hle =>
      hfirst other hother (Nat.le_of_succ_le hle)⟩

theorem or_eq_some_iff_barsFrom {x y : Option Reason}
    (hx : ∀ r, x = some r ↔ p.Objects inSubmodule file r ∧ r.rank = place)
    (hy : ∀ r, y = some r ↔ p.BarsFrom inSubmodule file (place + 1) r) (r : Reason) :
    x.or y = some r ↔ p.BarsFrom inSubmodule file place r := by
  cases x with
  | some found =>
    obtain ⟨hobjects, hrank⟩ := (hx found).1 rfl
    rw [Option.some_or, hx]
    constructor
    · rintro ⟨hobjects, hrank⟩
      exact .of_rank_eq hobjects hrank
    · intro h
      exact ⟨h.objects, Nat.le_antisymm (hrank ▸ h.first found hobjects hrank.ge) h.place_le⟩
  | none =>
    rw [Option.none_or, hy, barsFrom_succ_iff]
    intro other hother hrank
    cases (hx other).2 ⟨hother, hrank⟩

theorem reason?_eq_or (p : Policy) (inside : Bool) (file : Label) : p.reason? inside file =
    (if p.barSubmodules && (inside || file.attrs.submodule) then some .submodule else none).or
      ((if p.barLfs && file.attrs.lfs then some .lfs else none).or
        (((p.maxSize.filter (· < file.attrs.size)).map (.tooLarge file.attrs.size)).or
          ((if p.barBinary && FileType.isBinary file.path then some .binary else none).or none))) := by
  unfold reason?
  cases p.barSubmodules && (inside || file.attrs.submodule)
  · cases p.barLfs && file.attrs.lfs
    · cases p.maxSize.filter (· < file.attrs.size) with
      | none => simp
      | some limit => rfl
    · rfl
  · rfl

theorem reason?_eq_some_iff {inside : Bool} (hinside : inside = true ↔ inSubmodule) :
    p.reason? inside file = some r ↔ p.Bars inSubmodule file r := by
  have hsubmodule : (p.barSubmodules && (inside || file.attrs.submodule)) = true ↔
      p.Objects inSubmodule file .submodule := by
    simp [Objects, ← hinside, or_comm]
  rw [reason?_eq_or, ← barsFrom_zero_iff]
  refine or_eq_some_iff_barsFrom ?submodule (or_eq_some_iff_barsFrom ?lfs
    (or_eq_some_iff_barsFrom ?size (or_eq_some_iff_barsFrom ?binary ?nothing))) r
  case submodule =>
    intro r
    cases r with
    | submodule =>
      rw [Option.ite_none_right_eq_some, hsubmodule]
      simp [Reason.rank]
    | _ => simp [Reason.rank]
  case lfs =>
    intro r
    cases r <;> simp [Objects, Reason.rank]
  case size =>
    intro r
    cases r with
    | tooLarge size limit =>
      simp only [Option.map_eq_some_iff, Option.filter_eq_some_iff, Objects, Reason.rank,
        and_true]
      constructor
      · rintro ⟨_, ⟨hlimit, hlt⟩, ⟨⟩⟩
        exact ⟨hlimit, rfl, of_decide_eq_true hlt⟩
      · rintro ⟨hlimit, rfl, hlt⟩
        exact ⟨limit, ⟨hlimit, decide_eq_true hlt⟩, rfl⟩
    | _ => simp [Objects, Reason.rank]
  case binary =>
    intro r
    cases r <;> simp [Objects, Reason.rank]
  case nothing =>
    intro r
    refine iff_of_false (by simp) fun h => ?_
    have hplace := h.place_le
    cases r with
    | secret => exact h.objects
    | _ => simp [Reason.rank] at hplace

end

end Policy

namespace Tree

def InSubmodule (t : Tree) (path : String) : Prop :=
  ∃ d ∈ t.dirs, Path.IsBelow d.path path ∧ d.attrs.submodule = true

instance (t : Tree) (path : String) : Decidable (t.InSubmodule path) :=
  inferInstanceAs (Decidable (∃ d ∈ t.dirs, _))

section

variable {above : String} {l file : Label} {children rest t : Tree}

theorem inSubmodule_dir_iff {path : String} : (Tree.dir l children rest).InSubmodule path ↔
    (Path.IsBelow l.path path ∧ l.attrs.submodule = true) ∨ children.InSubmodule path ∨
      rest.InSubmodule path := by
  simp [InSubmodule, dirs, or_and_right, exists_or]

theorem Shaped.not_inSubmodule_file (h : Shaped above (.file l rest)) :
    ¬ (Tree.file l rest).InSubmodule l.path := by
  rintro ⟨d, hd, hbelow, -⟩
  obtain ⟨_, hd⟩ := mem_dirs.1 (show d ∈ rest.dirs from hd)
  exact h.not_isBelow_file hd hbelow

theorem Shaped.inSubmodule_dir_iff_of_mem_children (h : Shaped above (.dir l children rest))
    (hfile : file ∈ children.files) : (Tree.dir l children rest).InSubmodule file.path ↔
      l.attrs.submodule = true ∨ children.InSubmodule file.path := by
  have hnode := mem_files.1 hfile
  have hbelow : Path.IsBelow l.path file.path :=
    h.isBelow (m := .dir l children) List.mem_cons_self hnode
  have hrest : ¬ rest.InSubmodule file.path := by
    rintro ⟨d, hd, hbelow, -⟩
    obtain ⟨_, hd⟩ := mem_dirs.1 hd
    exact (h.not_isBelow_dir (List.mem_cons_of_mem _ hnode) hd).2 hbelow
  rw [inSubmodule_dir_iff, and_iff_right hbelow, or_iff_left hrest]

theorem Shaped.inSubmodule_dir_iff_of_mem_rest (h : Shaped above (.dir l children rest))
    (hfile : file ∈ rest.files) :
    (Tree.dir l children rest).InSubmodule file.path ↔ rest.InSubmodule file.path := by
  have hnode := mem_files.1 hfile
  have hfirst : ¬ Path.IsBelow l.path file.path :=
    (h.not_isBelow_dir (m := .dir l children) List.mem_cons_self hnode).1
  have hchildren : ¬ children.InSubmodule file.path := by
    rintro ⟨d, hd, hbelow, -⟩
    obtain ⟨_, hd⟩ := mem_dirs.1 hd
    exact (h.not_isBelow_dir (List.mem_cons_of_mem _ hd) hnode).1 hbelow
  simp [inSubmodule_dir_iff, hfirst, hchildren]

end

end Tree

namespace Policy

variable {p : Policy} {above : String} {l : Label} {children rest t : Tree} {inside : Bool}
  {x : Exclusion}

theorem mem_exclusionsIn_file : x ∈ p.exclusionsIn inside (.file l rest) ↔
    (l.path = x.path ∧ p.reason? inside l = some x.reason) ∨ x ∈ p.exclusionsIn inside rest := by
  obtain ⟨path, reason⟩ := x
  rw [exclusionsIn]
  cases p.reason? inside l with
  | none => simp
  | some r => simp [eq_comm]

theorem mem_exclusionsIn_iff (h : t.Shaped above) :
    x ∈ p.exclusionsIn inside t ↔ ∃ file ∈ t.files, file.path = x.path ∧
      p.reason? (inside || decide (t.InSubmodule file.path)) file = some x.reason := by
  induction t generalizing above inside with
  | nil => simp [exclusionsIn, Tree.files]
  | file l rest ih =>
    have hself : (inside || decide ((Tree.file l rest).InSubmodule l.path)) = inside := by
      simp [h.not_inSubmodule_file]
    rw [mem_exclusionsIn_file, ih h.of_file, Tree.files, List.exists_mem_cons_iff, hself]
    rfl
  | dir l children rest ihc ihr =>
    have hchildren (file : Label) (hfile : file ∈ children.files) :
        (inside || l.attrs.submodule || decide (children.InSubmodule file.path)) =
          (inside || decide ((Tree.dir l children rest).InSubmodule file.path)) := by
      simp [h.inSubmodule_dir_iff_of_mem_children hfile, Bool.or_assoc]
    have hrest (file : Label) (hfile : file ∈ rest.files) :
        (inside || decide (rest.InSubmodule file.path)) =
          (inside || decide ((Tree.dir l children rest).InSubmodule file.path)) := by
      simp [h.inSubmodule_dir_iff_of_mem_rest hfile]
    rw [exclusionsIn, List.mem_append, ihc h.of_dir.1, ihr h.of_dir.2]
    simp only [Tree.files, List.mem_append, or_and_right, exists_or]
    refine or_congr (exists_congr fun file => and_congr_right fun hfile => ?_)
      (exists_congr fun file => and_congr_right fun hfile => ?_)
    · rw [hchildren file hfile]
    · rw [hrest file hfile]

/-- The exclusions are files of the tree in their order, each at most once, and each for the first
thing that the policy has against it. A directory is marked by the last entry for its path. -/
structure Judges (p : Policy) (es : List Entry) (t : Tree) (xs : List Exclusion) : Prop where
  sublist_paths : (xs.map (·.path)).Sublist t.filePaths
  nodup_paths : (xs.map (·.path)).Nodup
  mem_iff : ∀ path reason, ⟨path, reason⟩ ∈ xs ↔
    ∃ file ∈ t.files, file.path = path ∧ p.Bars (t.InSubmodule path) file reason
  submodule_iff : ∀ d ∈ t.dirs, d.attrs.submodule = true ↔
    ∃ e, Entry.last? d.path es = some e ∧ e.kind = .dir ∧ e.attrs.submodule = true

end Policy

namespace Tree

theorem submodule_eq_true_iff {es : List Entry} {d : Label} (hd : d ∈ (ofEntries es).dirs) :
    d.attrs.submodule = true ↔
      ∃ e, Entry.last? d.path es = some e ∧ e.kind = .dir ∧ e.attrs.submodule = true := by
  obtain ⟨children, hnode⟩ := mem_dirs.1 hd
  obtain ⟨ss, name, hnames, hpath, hattrs, hdir⟩ := eq_of_mem_allNodes_ofEntries hnode
  have hword := Declaration.word_last?_ofEntries hnames es
  have hpath : d.path = Path.join (ss ++ [name]) := hpath
  have hattrs : d.attrs = Declaration.attrsOf name _ := hattrs
  rw [← hpath] at hword
  rw [hattrs, Declaration.attrsOf, ← hdir]
  cases he : Entry.last? d.path es with
  | none =>
    rw [he, Option.map_none, Option.map_eq_none_iff] at hword
    simp [hword]
  | some e =>
    rw [he, Option.map_some, Option.map_eq_some_iff] at hword
    obtain ⟨w, hw, hword⟩ := hword
    obtain ⟨hkind, hattrs⟩ : w.kind = e.kind ∧ w.attrs = e.attrs := Prod.mk.inj hword
    simp only [hw, hkind, hattrs, Option.some.injEq, exists_eq_left']
    by_cases hdirectory : e.kind = .dir <;> simp [Node.isDir, hdirectory]

end Tree

theorem Policy.exclusions_judges (p : Policy) (es : List Entry) :
    p.Judges es (.ofEntries es) (p.exclusions (.ofEntries es)) where
  sublist_paths := sublist_exclusionsIn false _
  nodup_paths := nodup_exclusions (Tree.shaped_ofEntries es)
  mem_iff path reason := by
    rw [exclusions, mem_exclusionsIn_iff (Tree.shaped_ofEntries es)]
    refine exists_congr fun file => and_congr_right fun _ => and_congr_right ?_
    rintro rfl
    exact reason?_eq_some_iff (by simp)
  submodule_iff _ hd := Tree.submodule_eq_true_iff hd

example :
    let es : List Entry :=
      [⟨"lib", .dir, {}⟩, ⟨"lib/src/logo.png", .file, {}⟩, ⟨"logo.png", .file, { lfs := true }⟩,
        ⟨"lib", .dir, { submodule := true }⟩]
    let p := Policy.ofConfig {}
    p.exclusions (.ofEntries es) =
      [⟨"lib/src/logo.png", .submodule⟩, ⟨"logo.png", .lfs⟩] := by
  decide +kernel

end TreeSelection
