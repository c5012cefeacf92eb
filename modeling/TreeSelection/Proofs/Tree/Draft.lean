import Mathlib.Data.List.Nodup
import TreeSelection.Tree.Draft

namespace TreeSelection

namespace Draft

def IsAbove (ss ts : List String) : Prop := ss <+: ts ∧ ss ≠ ts

instance (ss ts : List String) : Decidable (IsAbove ss ts) :=
  inferInstanceAs (Decidable (_ ∧ _))

theorem not_isAbove_self (ss : List String) : ¬ IsAbove ss ss := fun h => h.2 rfl

theorem isAbove_iff {ss ts : List String} :
    IsAbove ss ts ↔ ∃ rest, rest ≠ [] ∧ ts = ss ++ rest := by
  constructor
  · rintro ⟨⟨rest, rfl⟩, hne⟩
    exact ⟨rest, by simpa using hne, rfl⟩
  · rintro ⟨rest, hrest, rfl⟩
    exact ⟨List.prefix_append _ _, by simpa using hrest⟩

theorem mem_ancestors {a ss : List String} : a ∈ ancestors ss ↔ a ≠ [] ∧ IsAbove a ss := by
  induction ss generalizing a with
  | nil => simp [ancestors, IsAbove]
  | cons s ss ih =>
    cases ss with
    | nil => cases a <;> simp [ancestors, IsAbove]
    | cons t ss =>
      simp only [ancestors, List.mem_cons, List.mem_map, ih]
      cases a with
      | nil => simp
      | cons b a =>
        constructor
        · rintro (h | ⟨a, ⟨-, hpre, hne⟩, h⟩)
          · simp_all [IsAbove]
          · simp_all [IsAbove]
        · rintro ⟨-, hpre, hne⟩
          obtain ⟨rfl, htail⟩ := List.cons_prefix_cons.1 hpre
          by_cases ha : a = []
          · exact .inl (by rw [ha])
          · exact .inr ⟨a, ⟨ha, htail, fun h => hne (h ▸ rfl)⟩, rfl⟩

theorem nodup_ancestors (ss : List String) : (ancestors ss).Nodup := by
  induction ss with
  | nil => simp [ancestors]
  | cons s ss ih =>
    cases ss with
    | nil => simp [ancestors]
    | cons t ss =>
      rw [ancestors, List.nodup_cons, List.mem_map]
      · refine ⟨?_, ih.map fun _ _ h => (List.cons.inj h).2⟩
        rintro ⟨a, ha, h⟩
        exact (mem_ancestors.1 ha).1 (List.cons.inj h).2
      · simp

theorem find?_put (new : Declaration) (ds : List Declaration) (ss : List String) :
    (put new ds).find? (·.segments = ss) =
      if new.segments = ss then some new else ds.find? (·.segments = ss) := by
  induction ds with
  | nil => by_cases h : new.segments = ss <;> simp [put, h]
  | cons d ds ih =>
    by_cases hd : d.segments = new.segments
    · by_cases h : new.segments = ss <;> simp [put, hd, h]
    · by_cases h : new.segments = ss
      · subst h
        simp [put, hd, ih]
      · simp [put, hd, List.find?_cons, ih, h]

theorem mem_put {new d : Declaration} {ds : List Declaration} (h : d ∈ put new ds) :
    d = new ∨ d ∈ ds := by
  induction ds with
  | nil => exact .inl (by simpa [put] using h)
  | cons d' ds ih =>
    rw [put] at h
    split at h
    · exact (List.mem_cons.1 h).imp_right (List.mem_cons_of_mem _)
    · rcases List.mem_cons.1 h with rfl | h
      · exact .inr List.mem_cons_self
      · exact (ih h).imp_right (List.mem_cons_of_mem _)

theorem nodup_put (new : Declaration) {ds : List Declaration}
    (h : (ds.map (·.segments)).Nodup) : ((put new ds).map (·.segments)).Nodup := by
  induction ds with
  | nil => simp [put]
  | cons d ds ih =>
    rw [List.map_cons, List.nodup_cons] at h
    rw [put]
    split
    · next heq => simpa [← heq] using h
    · next hne =>
      rw [List.map_cons, List.nodup_cons]
      refine ⟨fun hmem => ?_, ih h.2⟩
      obtain ⟨e, he, heq⟩ := List.mem_map.1 hmem
      rcases mem_put he with rfl | he
      · exact hne heq.symm
      · exact h.1 (heq ▸ List.mem_map_of_mem he)

section

variable (d : Draft) (new : Declaration) (ss : List String)

@[simp] theorem at?_settle :
    (d.settle new).at? ss = if new.segments = ss then some new else d.at? ss :=
  find?_put new d.settled ss

@[simp] theorem at?_warn (w : Warning) : (d.warn w).at? ss = d.at? ss := rfl

@[simp] theorem warnings_settle : (d.settle new).warnings = d.warnings := rfl

@[simp] theorem warnings_warn (w : Warning) : (d.warn w).warnings = d.warnings ++ [w] := rfl

theorem at?_eq_none_iff : d.at? ss = none ↔ ∀ s ∈ d.settled, s.segments ≠ ss := by
  simp [at?]

def asDirectory (old : Option Declaration) : Declaration :=
  (old.filter (·.kind = .dir)).getD ⟨ss, .dir, {}⟩

@[simp] theorem kind_asDirectory (old : Option Declaration) : (asDirectory ss old).kind = .dir := by
  rcases old with _ | old
  · rfl
  · by_cases h : old.kind = .dir <;> simp [asDirectory, Option.filter_some, h]

theorem asDirectory_of_kind {old : Declaration} (h : old.kind = .dir) :
    asDirectory ss (some old) = old := by
  simp [asDirectory, Option.filter_some, h]

theorem asDirectory_of_kind_file {old : Declaration} (h : old.kind = .file) :
    asDirectory ss (some old) = ⟨ss, .dir, {}⟩ := by
  simp [asDirectory, Option.filter_some, h]

theorem at?_enter (ts : List String) : (d.enter ss).at? ts =
    if ts = ss then some (asDirectory ss (d.at? ss)) else d.at? ts := by
  cases h : d.at? ss with
  | none => simp [enter, h, asDirectory, eq_comm]
  | some old =>
    cases hkind : old.kind with
    | file => simp [enter, h, hkind, asDirectory_of_kind_file, eq_comm]
    | dir =>
      rw [asDirectory_of_kind ss hkind]
      by_cases hts : ts = ss <;> simp [enter, h, hkind, hts]

theorem warnings_enter : (d.enter ss).warnings = d.warnings ++
    if (d.at? ss).any (·.kind = .file) then [.fileWithChildren (Path.join ss)] else [] := by
  cases h : d.at? ss with
  | none => simp [enter, h]
  | some old => cases hkind : old.kind <;> simp [enter, h, hkind]

end

theorem at?_enterAll (d : Draft) (paths : List (List String)) (ts : List String) :
    (d.enterAll paths).at? ts =
      if ts ∈ paths then some (asDirectory ts (d.at? ts)) else d.at? ts := by
  induction paths generalizing d with
  | nil => simp [enterAll]
  | cons ss paths ih =>
    rw [enterAll, List.foldl_cons, ← enterAll, ih, at?_enter]
    by_cases hts : ts = ss
    · subst hts
      simp [asDirectory_of_kind]
    · simp [hts]

theorem warnings_enterAll (d : Draft) {paths : List (List String)} (h : paths.Nodup) :
    (d.enterAll paths).warnings = d.warnings ++
      (paths.filter fun ss => (d.at? ss).any (·.kind = .file)).map
        fun ss => .fileWithChildren (Path.join ss) := by
  induction paths generalizing d with
  | nil => simp [enterAll]
  | cons ss paths ih =>
    obtain ⟨hss, hpaths⟩ := List.nodup_cons.1 h
    -- the other paths are as they were
    have hsame : paths.filter (fun ts => ((d.enter ss).at? ts).any (·.kind = .file)) =
        paths.filter fun ts => (d.at? ts).any (·.kind = .file) := by
      refine List.filter_congr fun ts hts => ?_
      rw [at?_enter, if_neg (ne_of_mem_of_not_mem hts hss)]
    rw [enterAll, List.foldl_cons, ← enterAll, ih _ hpaths, hsame, warnings_enter,
      List.append_assoc, List.filter_cons]
    split <;> simp

structure IsProper (d : Draft) : Prop where
  ne_nil : ∀ s ∈ d.settled, s.segments ≠ []
  nodup : (d.settled.map (·.segments)).Nodup

namespace IsProper

variable {d : Draft} (h : d.IsProper)
include h

theorem settle {new : Declaration} (hnew : new.segments ≠ []) : (d.settle new).IsProper where
  ne_nil s hs := by
    rcases mem_put hs with rfl | hs
    · exact hnew
    · exact h.ne_nil s hs
  nodup := nodup_put new h.nodup

theorem warn (w : Warning) : (d.warn w).IsProper := ⟨h.ne_nil, h.nodup⟩

theorem enter {ss : List String} (hss : ss ≠ []) : (d.enter ss).IsProper := by
  rw [Draft.enter]
  split
  · exact h.settle hss
  · split
    · exact (h.settle hss).warn _
    · exact h

theorem enterAll {paths : List (List String)} (hpaths : ∀ ss ∈ paths, ss ≠ []) :
    (d.enterAll paths).IsProper := by
  induction paths generalizing d with
  | nil => exact h
  | cons ss paths ih =>
    obtain ⟨hss, hpaths⟩ := List.forall_mem_cons.1 hpaths
    exact ih (h.enter hss) hpaths

theorem hasChildren_iff (ss : List String) :
    d.hasChildren ss = true ↔ ∃ name, d.at? (ss ++ [name]) ≠ none := by
  simp only [hasChildren, List.any_eq_true, decide_eq_true_eq, ne_eq, at?_eq_none_iff, not_forall,
    not_not, exists_prop]
  constructor
  · rintro ⟨s, hs, rfl⟩
    exact ⟨s.segments.getLast (h.ne_nil s hs), s, hs, (List.dropLast_append_getLast _).symm⟩
  · rintro ⟨name, s, hs, heq⟩
    exact ⟨s, hs, by simp [heq]⟩

end IsProper

/-- The draft with its ancestors entered has no children at the path of a declaration: the
declaration settles its path, with a warning if the path was of another kind. -/
theorem insert_eq {d : Draft} {new : Declaration}
    (h : (d.enterAll (ancestors new.segments)).hasChildren new.segments = false) :
    d.insert new =
      if (d.at? new.segments).any (·.kind ≠ new.kind) then
        ((d.enterAll (ancestors new.segments)).settle new).warn (.kindConflict new.path)
      else (d.enterAll (ancestors new.segments)).settle new := by
  have hself : new.segments ∉ ancestors new.segments :=
    fun hmem => not_isAbove_self _ (mem_ancestors.1 hmem).2
  simp only [insert, at?_enterAll, if_neg hself]
  cases d.at? new.segments with
  | none => simp
  | some old => by_cases hkind : old.kind = new.kind <;> simp [merge, hkind, h]

end Draft

end TreeSelection
