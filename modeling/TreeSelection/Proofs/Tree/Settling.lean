import Mathlib.Data.List.Induction
import Mathlib.Data.String.Basic
import TreeSelection.Proofs.Tree.Declared
import TreeSelection.Proofs.Tree.Draft

/-!
What insertion settles. As long as no path is declared after something below it, each path stands as
its last declaration says, or as a directory once something is declared below it, and no declaration
meets a path that has children. The order of a listing's declarations is such an order.
-/

namespace TreeSelection

namespace Draft

def declared? (ss : List String) (ds : List Declaration) : Option Declaration :=
  (ds.filter (·.segments = ss)).getLast?

def Reaches (ss : List String) (ds : List Declaration) : Prop := ∃ d ∈ ds, IsAbove ss d.segments

instance (ss : List String) (ds : List Declaration) : Decidable (Reaches ss ds) :=
  inferInstanceAs (Decidable (∃ d ∈ ds, IsAbove ss d.segments))

def settled? (ss : List String) (ds : List Declaration) : Option Declaration :=
  if Reaches ss ds then some (asDirectory ss (declared? ss ds)) else declared? ss ds

def due (ds : List Declaration) (new : Declaration) : List Warning :=
  ((ancestors new.segments).filter fun ss => (settled? ss ds).any (·.kind = .file)).map
      (fun ss => .fileWithChildren (Path.join ss)) ++
    if (declared? new.segments ds).any (·.kind ≠ new.kind) then [.kindConflict new.path] else []

section

variable {ss : List String} {ds : List Declaration} {new : Declaration}

theorem declared?_concat : declared? ss (ds ++ [new]) =
    if new.segments = ss then some new else declared? ss ds := by
  by_cases h : new.segments = ss <;> simp [declared?, h]

theorem reaches_concat : Reaches ss (ds ++ [new]) ↔ Reaches ss ds ∨ IsAbove ss new.segments := by
  simp [Reaches, or_and_right, exists_or]

theorem declared?_eq_none_iff : declared? ss ds = none ↔ ∀ d ∈ ds, d.segments ≠ ss := by
  simp [declared?]

theorem settled?_of_not_reaches (h : ¬ Reaches ss ds) : settled? ss ds = declared? ss ds :=
  if_neg h

theorem settled?_of_reaches (h : Reaches ss ds) :
    settled? ss ds = some (asDirectory ss (declared? ss ds)) := if_pos h

theorem settled?_eq_none_iff : settled? ss ds = none ↔ ∀ d ∈ ds, ¬ ss <+: d.segments := by
  by_cases h : Reaches ss ds
  · obtain ⟨d, hd, hpre, -⟩ := id h
    rw [settled?_of_reaches h]
    exact iff_of_false (by simp) fun hnone => hnone d hd hpre
  · rw [settled?_of_not_reaches h, declared?_eq_none_iff]
    refine forall₂_congr fun d hd => not_congr ?_
    exact ⟨fun heq => heq ▸ List.prefix_rfl,
      fun hpre => by_contra fun hne => h ⟨d, hd, hpre, Ne.symm hne⟩⟩

theorem settled?_concat (h : ¬ Reaches new.segments ds) : settled? ss (ds ++ [new]) =
    if new.segments = ss then some new
    else if IsAbove ss new.segments then some (asDirectory ss (settled? ss ds))
    else settled? ss ds := by
  simp only [settled?, reaches_concat, declared?_concat]
  by_cases heq : new.segments = ss
  · subst heq
    simp [h, not_isAbove_self]
  · by_cases habove : IsAbove ss new.segments <;> by_cases hreaches : Reaches ss ds <;>
      simp [heq, habove, hreaches, asDirectory_of_kind]

end

structure Follows (d : Draft) (ds : List Declaration) : Prop extends d.IsProper where
  at?_eq : ∀ ss, ss ≠ [] → d.at? ss = settled? ss ds

theorem follows_nil (ws : List Warning) : Follows ⟨[], ws⟩ [] where
  ne_nil := by simp
  nodup := by simp
  at?_eq ss _ := rfl

namespace Follows

variable {d : Draft} {ds : List Declaration} {new : Declaration} (h : d.Follows ds)
  (hnew : new.segments ≠ []) (hbelow : ¬ Reaches new.segments ds)
include h hbelow

theorem hasChildren_eq_false :
    (d.enterAll (ancestors new.segments)).hasChildren new.segments = false := by
  have hproper : (d.enterAll (ancestors new.segments)).IsProper :=
    h.toIsProper.enterAll fun ss hss => (mem_ancestors.1 hss).1
  rw [← Bool.not_eq_true, hproper.hasChildren_iff]
  rintro ⟨name, hat⟩
  have hanc : new.segments ++ [name] ∉ ancestors new.segments := fun hmem => by
    have hlen := (mem_ancestors.1 hmem).2.1.length_le
    rw [List.length_append, List.length_singleton] at hlen
    exact Nat.not_succ_le_self _ hlen
  rw [at?_enterAll, if_neg hanc, h.at?_eq _ (by simp), ne_eq, settled?_eq_none_iff] at hat
  obtain ⟨e, he, rest, hrest⟩ : ∃ e ∈ ds, new.segments ++ [name] <+: e.segments := by
    by_contra! hnone
    exact hat hnone
  exact hbelow ⟨e, he, isAbove_iff.2 ⟨name :: rest, by simp, by simp [← hrest]⟩⟩

include hnew

theorem warnings_insert : (d.insert new).warnings = d.warnings ++ due ds new := by
  have hpromoted : (ancestors new.segments).filter (fun ss => (d.at? ss).any (·.kind = .file)) =
      (ancestors new.segments).filter fun ss => (settled? ss ds).any (·.kind = .file) :=
    List.filter_congr fun ss hss => by rw [h.at?_eq ss (mem_ancestors.1 hss).1]
  rw [insert_eq (h.hasChildren_eq_false hbelow), h.at?_eq _ hnew, settled?_of_not_reaches hbelow,
    due, ← List.append_assoc, ← hpromoted, ← warnings_enterAll d (nodup_ancestors _)]
  split <;> simp

theorem insert : (d.insert new).Follows (ds ++ [new]) := by
  have hentered : (d.enterAll (ancestors new.segments)).IsProper :=
    h.toIsProper.enterAll fun ss hss => (mem_ancestors.1 hss).1
  have hsettled := hentered.settle hnew
  have hat (ss : List String) (hss : ss ≠ []) :
      ((d.enterAll (ancestors new.segments)).settle new).at? ss = settled? ss (ds ++ [new]) := by
    rw [settled?_concat hbelow, at?_settle, at?_enterAll, h.at?_eq ss hss]
    simp only [mem_ancestors, hss, ne_eq, not_false_eq_true, true_and]
  rw [insert_eq (h.hasChildren_eq_false hbelow)]
  split
  · exact { hsettled.warn _ with at?_eq := hat }
  · exact { hsettled with at?_eq := hat }

end Follows

structure IsWay (ss : List String) : Prop where
  ne_nil : ss ≠ []
  isName : ∀ s ∈ ss, Path.IsName s

theorem IsWay.join_inj {ss ts : List String} (hs : IsWay ss) (ht : IsWay ts) :
    Path.join ss = Path.join ts ↔ ss = ts :=
  ⟨Path.join_injective hs.ne_nil hs.isName ht.ne_nil ht.isName, congrArg _⟩

theorem IsWay.of_isAbove {ss ts : List String} (ht : IsWay ts) (hss : ss ≠ [])
    (h : IsAbove ss ts) : IsWay ss :=
  ⟨hss, fun s hs => ht.isName s (h.1.subset hs)⟩

/-- No path is declared after something below it. -/
structure TopDown (ds : List Declaration) : Prop where
  isWay : ∀ d ∈ ds, IsWay d.segments
  pairwise : ds.Pairwise fun d e => ¬ IsAbove e.segments d.segments

theorem topDown_concat {ds : List Declaration} {new : Declaration} :
    TopDown (ds ++ [new]) ↔ TopDown ds ∧ IsWay new.segments ∧ ¬ Reaches new.segments ds := by
  constructor
  · rintro ⟨hway, hpairwise⟩
    rw [List.forall_mem_append, List.forall_mem_singleton] at hway
    obtain ⟨hpairwise, -, hlast⟩ := List.pairwise_append.1 hpairwise
    refine ⟨⟨hway.1, hpairwise⟩, hway.2, ?_⟩
    rintro ⟨d, hd, habove⟩
    exact hlast d hd new (by simp) habove
  · rintro ⟨⟨hway, hpairwise⟩, hnew, hbelow⟩
    refine ⟨List.forall_mem_append.2 ⟨hway, by simpa using hnew⟩, ?_⟩
    refine List.pairwise_append.2 ⟨hpairwise, by simp, fun d hd e he habove => ?_⟩
    obtain rfl := List.mem_singleton.1 he
    exact hbelow ⟨d, hd, habove⟩

theorem follows_ofDeclarations (ws : List Warning) {ds : List Declaration} (h : TopDown ds) :
    (ofDeclarations ws ds).Follows ds := by
  induction ds using List.reverseRecOn with
  | nil => exact follows_nil ws
  | append_singleton ds new ih =>
    obtain ⟨h, hnew, hbelow⟩ := topDown_concat.1 h
    rw [ofDeclarations, List.foldl_concat, ← ofDeclarations]
    exact (ih h).insert hnew.ne_nil hbelow

theorem warnings_ofDeclarations_concat (ws : List Warning) {ds : List Declaration}
    {new : Declaration} (h : TopDown (ds ++ [new])) :
    (ofDeclarations ws (ds ++ [new])).warnings = (ofDeclarations ws ds).warnings ++ due ds new := by
  obtain ⟨h, hnew, hbelow⟩ := topDown_concat.1 h
  rw [ofDeclarations, List.foldl_concat, ← ofDeclarations]
  exact (follows_ofDeclarations ws h).warnings_insert hnew.ne_nil hbelow

example : (ofDeclarations [] [⟨["a", "b"], .file, {}⟩, ⟨["a"], .file, {}⟩]).warnings =
    [.keptDirectory "a"] := by decide +kernel

end Draft

theorem Path.lt_of_isBelow {p q : String} (h : IsBelow p q) : p < q := by
  obtain ⟨rest, hrest⟩ := h
  rw [String.toList_append, List.append_assoc] at hrest
  rw [String.lt_iff_toList_lt, ← hrest]
  conv_lhs => rw [← List.append_nil p.toList]
  exact List.append_left_lt (List.nil_lt_cons _ _)

namespace Declaration

theorem sorted_perm (ds : List Declaration) : (sorted ds).Perm ds := List.mergeSort_perm _ _

theorem pairwise_sorted (ds : List Declaration) :
    (sorted ds).Pairwise fun d e => d.path ≤ e.path := by
  refine (List.pairwise_mergeSort (fun a b c => ?_) (fun a b => ?_) ds).imp of_decide_eq_true
  · simpa using String.le_trans
  · simpa using String.le_total a.path b.path

theorem filter_sorted (ds : List Declaration) (ss : List String) :
    (sorted ds).filter (·.segments = ss) = ds.filter (·.segments = ss) := by
  have hsame : (ds.filter (·.segments = ss)).Pairwise
      fun d e => decide (d.path ≤ e.path) = true := by
    refine List.pairwise_of_forall_mem_list fun d hd e he => ?_
    have hd : d.segments = ss := by simpa using (List.mem_filter.1 hd).2
    have he : e.segments = ss := by simpa using (List.mem_filter.1 he).2
    simp [path, hd, he]
  have hsub : (ds.filter (·.segments = ss)).Sublist (sorted ds) := by
    refine List.sublist_mergeSort (fun a b c => ?_) (fun a b => ?_) hsame List.filter_sublist
    · simpa using String.le_trans
    · simpa using String.le_total a.path b.path
  have hfilter := hsub.filter (·.segments = ss)
  rw [List.filter_filter] at hfilter
  simp only [Bool.and_self] at hfilter
  exact (hfilter.eq_of_length ((sorted_perm ds).filter _).length_eq.symm).symm

theorem topDown_sorted (es : List Entry) : Draft.TopDown (sorted (ofEntries es)) := by
  have hproper := proper_ofEntries es
  have hway : ∀ d ∈ sorted (ofEntries es), Draft.IsWay d.segments := fun d hd =>
    have hd := (sorted_perm _).mem_iff.1 hd
    ⟨hproper.ne_nil d hd, hproper.isName d hd⟩
  refine ⟨hway, (pairwise_sorted _).imp_of_mem fun {d e} hd he hle habove => ?_⟩
  obtain ⟨rest, hrest, heq⟩ := Draft.isAbove_iff.1 habove
  have hbelow : Path.IsBelow e.path d.path :=
    (Path.isBelow_join_iff (hway d hd).ne_nil (hway d hd).isName).2
      ⟨e.segments, rest, (hway e he).ne_nil, hrest, heq, rfl⟩
  exact String.not_lt.2 hle (Path.lt_of_isBelow hbelow)

end Declaration

end TreeSelection
