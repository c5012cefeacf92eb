import Mathlib.Data.List.Count
import TreeSelection.Proofs.Text.Quoted
import TreeSelection.Proofs.Tree.Below
import TreeSelection.Proofs.Tree.Settling

namespace TreeSelection

def Kind.changes (ks : List Kind) : Nat := (ks.zip ks.tail).countP fun k => k.1 ≠ k.2

theorem Kind.changes_concat (ks : List Kind) (k : Kind) :
    changes (ks ++ [k]) = changes ks + if ks.getLast?.any (· ≠ k) then 1 else 0 := by
  induction ks with
  | nil => rfl
  | cons a ks ih =>
    cases ks with
    | nil => simp [changes, List.countP_cons]
    | cons b ks =>
      simp only [changes, List.cons_append, List.tail_cons, List.zip_cons_cons,
        List.countP_cons, List.getLast?_cons_cons] at ih ⊢
      omega

namespace Draft

section

variable {ss : List String} {ds : List Declaration} {new : Declaration}

theorem exists_of_mem_due (hnew : IsWay new.segments) {w : Warning} (hw : w ∈ due ds new) :
    ∃ ss, IsWay ss ∧
      (w = .fileWithChildren (Path.join ss) ∨ w = .kindConflict (Path.join ss)) := by
  rcases List.mem_append.1 hw with hw | hw
  · obtain ⟨ss, hss, rfl⟩ := List.mem_map.1 hw
    obtain ⟨hne, habove⟩ := mem_ancestors.1 (List.mem_filter.1 hss).1
    exact ⟨ss, hnew.of_isAbove hne habove, .inl rfl⟩
  · split at hw
    · exact ⟨_, hnew, .inr (List.mem_singleton.1 hw)⟩
    · cases hw

theorem count_kindConflict_due (hss : IsWay ss) (hnew : IsWay new.segments) :
    (due ds new).count (.kindConflict (Path.join ss)) =
      if new.segments = ss ∧ (declared? ss ds).any (·.kind ≠ new.kind) then 1 else 0 := by
  have hnone : ∀ l : List (List String), (l.map fun ss =>
      Warning.fileWithChildren (Path.join ss)).count (.kindConflict (Path.join ss)) = 0 :=
    fun l => List.count_eq_zero.2 (by simp)
  rw [due, List.count_append, hnone, Nat.zero_add]
  by_cases heq : new.segments = ss
  · subst heq
    simp only [true_and]
    split <;> simp [Declaration.path]
  · have hpath : new.path ≠ Path.join ss := fun hpath => heq ((hnew.join_inj hss).1 hpath)
    simp only [heq, false_and, if_false]
    split <;> simp [hpath]

theorem count_fileWithChildren_due (hss : IsWay ss) (hnew : IsWay new.segments) :
    (due ds new).count (.fileWithChildren (Path.join ss)) =
      if IsAbove ss new.segments ∧ (settled? ss ds).any (·.kind = .file) then 1 else 0 := by
  have hnone : (if (declared? new.segments ds).any (·.kind ≠ new.kind) then
      [Warning.kindConflict new.path] else []).count (.fileWithChildren (Path.join ss)) = 0 := by
    split <;> simp
  -- among the ancestors, a path is known by its text
  have hcount : (((ancestors new.segments).filter fun ts =>
      (settled? ts ds).any (·.kind = .file)).map fun ts =>
        Warning.fileWithChildren (Path.join ts)).count (.fileWithChildren (Path.join ss)) =
      ((ancestors new.segments).filter fun ts =>
        (settled? ts ds).any (·.kind = .file)).count ss := by
    rw [List.count, List.countP_map, List.count]
    refine List.countP_congr fun ts hts => ?_
    obtain ⟨hne, habove⟩ := mem_ancestors.1 (List.mem_filter.1 hts).1
    simp [(hnew.of_isAbove hne habove).join_inj hss]
  rw [due, List.count_append, hnone, hcount, Nat.add_zero, ((nodup_ancestors _).filter _).count]
  simp [mem_ancestors, hss.ne_nil]

end

section

variable {ss : List String} {ds : List Declaration} (ws : List Warning) (h : TopDown ds)
include h

theorem exists_warnings_eq : ∃ news, (ofDeclarations ws ds).warnings = ws ++ news ∧
    ∀ w ∈ news, ∃ ss, IsWay ss ∧
      (w = .fileWithChildren (Path.join ss) ∨ w = .kindConflict (Path.join ss)) := by
  induction ds using List.reverseRecOn with
  | nil => exact ⟨[], by simp [ofDeclarations], by simp⟩
  | append_singleton ds new ih =>
    obtain ⟨hds, hnew, -⟩ := topDown_concat.1 h
    obtain ⟨news, heq, hnews⟩ := ih hds
    rw [warnings_ofDeclarations_concat ws h, heq, List.append_assoc]
    exact ⟨_, rfl, List.forall_mem_append.2 ⟨hnews, fun w hw => exists_of_mem_due hnew hw⟩⟩

theorem count_kindConflict (hss : IsWay ss) :
    (ofDeclarations ws ds).warnings.count (.kindConflict (Path.join ss)) =
      ws.count (.kindConflict (Path.join ss)) +
        Kind.changes ((ds.filter (·.segments = ss)).map (·.kind)) := by
  induction ds using List.reverseRecOn with
  | nil => rfl
  | append_singleton ds new ih =>
    obtain ⟨hds, hnew, -⟩ := topDown_concat.1 h
    rw [warnings_ofDeclarations_concat ws h, List.count_append, ih hds, Nat.add_assoc,
      count_kindConflict_due hss hnew, List.filter_append, List.map_append]
    have hlast : (declared? ss ds).any (·.kind ≠ new.kind) =
        ((ds.filter (·.segments = ss)).map (·.kind)).getLast?.any (· ≠ new.kind) := by
      rw [declared?, List.getLast?_map, Option.any_map]
    by_cases heq : new.segments = ss
    · rw [hlast]
      simp [heq, Kind.changes_concat]
    · simp [heq]

theorem count_fileWithChildren (hss : IsWay ss) :
    (ofDeclarations ws ds).warnings.count (.fileWithChildren (Path.join ss)) =
      ws.count (.fileWithChildren (Path.join ss)) +
        if (declared? ss ds).any (·.kind = .file) ∧ Reaches ss ds then 1 else 0 := by
  induction ds using List.reverseRecOn with
  | nil => rfl
  | append_singleton ds new ih =>
    obtain ⟨hds, hnew, hbelow⟩ := topDown_concat.1 h
    rw [warnings_ofDeclarations_concat ws h, List.count_append, ih hds, Nat.add_assoc,
      count_fileWithChildren_due hss hnew]
    simp only [declared?_concat, reaches_concat]
    by_cases heq : new.segments = ss
    · subst heq
      simp [hbelow, not_isAbove_self]
    · by_cases hreaches : Reaches ss ds <;> by_cases habove : IsAbove ss new.segments <;>
        simp [heq, hreaches, habove, settled?]

end

end Draft

namespace Entry

theorem declaring_eq_nil {p : String} (h : ¬ ∃ ss, Draft.IsWay ss ∧ Path.join ss = p)
    (es : List Entry) : declaring p es = [] := by
  simp only [declaring, List.filter_eq_nil_iff, decide_eq_true_eq]
  intro e he hp
  obtain ⟨ss, hss, rfl⟩ := Path.normalize_eq_some_iff.1 hp
  obtain ⟨hne, hnames⟩ := Path.segments?_eq_some hss
  exact h ⟨ss, ⟨hne, hnames⟩, rfl⟩

instance (p : String) (es : List Entry) : Decidable (LeadsBelow p es) :=
  decidable_of_iff (es.any fun e => (Path.normalize e.path).any (Path.IsBelow p ·))
    (by simp [LeadsBelow, Option.any_eq_true])

end Entry

namespace Draft

variable {ss : List String} (hss : IsWay ss) (es : List Entry)
include hss

theorem words_sorted :
    ((Declaration.sorted (Declaration.ofEntries es)).filter (·.segments = ss)).map
        Declaration.word = (Entry.declaring (Path.join ss) es).map Entry.word := by
  rw [Declaration.filter_sorted, Declaration.words_ofEntries hss.ne_nil hss.isName]

theorem kinds_sorted :
    ((Declaration.sorted (Declaration.ofEntries es)).filter (·.segments = ss)).map (·.kind) =
      (Entry.declaring (Path.join ss) es).map (·.kind) := by
  simpa [Declaration.word, Entry.word, Function.comp_def] using
    congrArg (List.map Prod.fst) (words_sorted hss es)

theorem any_declared?_sorted (p : Kind → Bool) :
    (declared? ss (Declaration.sorted (Declaration.ofEntries es))).any (p ·.kind) =
      (Entry.last? (Path.join ss) es).any (p ·.kind) := by
  have hlast : (declared? ss (Declaration.sorted (Declaration.ofEntries es))).map (·.kind) =
      (Entry.last? (Path.join ss) es).map (·.kind) := by
    rw [declared?, ← List.getLast?_map, kinds_sorted hss, Entry.last?, List.getLast?_map]
  have hany := congrArg (Option.any p) hlast
  rwa [Option.any_map, Option.any_map] at hany

theorem reaches_sorted : Reaches ss (Declaration.sorted (Declaration.ofEntries es)) ↔
    Entry.LeadsBelow (Path.join ss) es := by
  rw [Declaration.leadsBelow_iff hss.ne_nil hss.isName]
  simp only [Reaches, isAbove_iff, (Declaration.sorted_perm _).mem_iff]

end Draft

namespace Warning

def subject : Warning → String
  | invalidPath p | fileWithChildren p | keptDirectory p | kindConflict p | unknownFile p
  | unknownDirectory p => p

def frame : Warning → String × String
  | invalidPath _ => ("Skipping repository entry with invalid path ", "")
  | fileWithChildren _ =>
    ("Path ", " was listed as a file but has children; treating it as a directory")
  | keptDirectory _ =>
    ("Path ", " was listed as a file but has children; keeping it as a directory")
  | kindConflict _ => ("Path ", " listed as both file and directory; the later entry wins")
  | unknownFile _ => ("toggle_file called for unknown file ", "")
  | unknownDirectory _ => ("toggle_directory called for unknown directory ", "")

theorem message_eq (w : Warning) : w.message = w.frame.1 ++ Text.quoted w.subject ++ w.frame.2 := by
  cases w with
  | invalidPath | unknownFile | unknownDirectory => exact (String.append_empty).symm
  | fileWithChildren | keptDirectory | kindConflict => rfl

theorem eq_of_frame_eq {w w' : Warning} (hframe : w.frame = w'.frame)
    (hsubject : w.subject = w'.subject) : w = w' := by
  cases w <;> cases w' <;> simp_all [frame, subject]

theorem quote_not_mem_frame (w : Warning) : '"' ∉ w.frame.1.toList := by
  cases w <;> simp only [frame] <;> decide +kernel

theorem message_injective : Function.Injective message := by
  intro w w' h
  rw [message_eq, message_eq] at h
  obtain ⟨hbefore, hsubject, hafter⟩ :=
    Text.append_quoted_inj (quote_not_mem_frame w) (quote_not_mem_frame w') h
  exact eq_of_frame_eq (Prod.ext hbefore hafter) hsubject

/-- These are the warnings that the listing calls for, each as often as it does, and each text comes
as often as its warning. -/
structure Reports (ws : List Warning) (es : List Entry) : Prop where
  count_invalidPath : ∀ s, ws.count (.invalidPath s) =
    es.countP fun e => e.path = s ∧ Path.normalize e.path = none
  count_kindConflict : ∀ p, ws.count (.kindConflict p) =
    Kind.changes ((Entry.declaring p es).map (·.kind))
  count_fileWithChildren : ∀ p, ws.count (.fileWithChildren p) =
    if (Entry.last? p es).any (·.kind = .file) ∧ Entry.LeadsBelow p es then 1 else 0
  count_message : ∀ w, (ws.map message).count w.message = ws.count w
  not_keptDirectory : ∀ p, .keptDirectory p ∉ ws
  not_unknown : ∀ p, .unknownFile p ∉ ws ∧ .unknownDirectory p ∉ ws

section

variable (es : List Entry)

theorem mem_invalidPaths {w : Warning} (hw : w ∈ invalidPaths es) : ∃ s, w = .invalidPath s := by
  obtain ⟨e, -, rfl⟩ := List.mem_map.1 hw
  exact ⟨_, rfl⟩

theorem count_invalidPaths (s : String) : (invalidPaths es).count (.invalidPath s) =
    es.countP fun e => e.path = s ∧ Path.normalize e.path = none := by
  rw [invalidPaths, List.count, List.countP_map, List.countP_filter]
  refine List.countP_congr fun e _ => ?_
  simp [Path.normalize]

theorem exists_ofEntries_eq : ∃ news, ofEntries es = invalidPaths es ++ news ∧
    ∀ w ∈ news, ∃ ss, Draft.IsWay ss ∧
      (w = .fileWithChildren (Path.join ss) ∨ w = .kindConflict (Path.join ss)) :=
  Draft.exists_warnings_eq _ (Declaration.topDown_sorted es)

theorem mem_ofEntries {w : Warning} (hw : w ∈ ofEntries es) : (∃ s, w = .invalidPath s) ∨
    ∃ ss, Draft.IsWay ss ∧
      (w = .fileWithChildren (Path.join ss) ∨ w = .kindConflict (Path.join ss)) := by
  obtain ⟨news, heq, hnews⟩ := exists_ofEntries_eq es
  rw [heq] at hw
  exact (List.mem_append.1 hw).imp (mem_invalidPaths es) (hnews w)

theorem count_kindConflict_ofEntries (p : String) : (ofEntries es).count (.kindConflict p) =
    Kind.changes ((Entry.declaring p es).map (·.kind)) := by
  by_cases hp : ∃ ss, Draft.IsWay ss ∧ Path.join ss = p
  · obtain ⟨ss, hss, rfl⟩ := hp
    have hnone : (invalidPaths es).count (.kindConflict (Path.join ss)) = 0 :=
      List.count_eq_zero.2 fun hw => by simpa using mem_invalidPaths es hw
    rw [ofEntries, Draft.ofEntries,
      Draft.count_kindConflict _ (Declaration.topDown_sorted es) hss, hnone, Nat.zero_add,
      Draft.kinds_sorted hss]
  · rw [Entry.declaring_eq_nil hp]
    refine List.count_eq_zero.2 fun hw => hp ?_
    simpa [eq_comm] using mem_ofEntries es hw

theorem count_fileWithChildren_ofEntries (p : String) :
    (ofEntries es).count (.fileWithChildren p) =
      if (Entry.last? p es).any (·.kind = .file) ∧ Entry.LeadsBelow p es then 1 else 0 := by
  by_cases hp : ∃ ss, Draft.IsWay ss ∧ Path.join ss = p
  · obtain ⟨ss, hss, rfl⟩ := hp
    have hnone : (invalidPaths es).count (.fileWithChildren (Path.join ss)) = 0 :=
      List.count_eq_zero.2 fun hw => by simpa using mem_invalidPaths es hw
    rw [ofEntries, Draft.ofEntries,
      Draft.count_fileWithChildren _ (Declaration.topDown_sorted es) hss, hnone, Nat.zero_add]
    simp only [Draft.any_declared?_sorted hss es (· = .file), Draft.reaches_sorted hss es]
  · have hlast : Entry.last? p es = none := by rw [Entry.last?, Entry.declaring_eq_nil hp]; rfl
    rw [hlast, if_neg (by simp)]
    refine List.count_eq_zero.2 fun hw => hp ?_
    simpa [eq_comm] using mem_ofEntries es hw

end

theorem reports_ofEntries (es : List Entry) : Reports (ofEntries es) es where
  count_invalidPath s := by
    obtain ⟨news, heq, hnews⟩ := exists_ofEntries_eq es
    have hnone : news.count (.invalidPath s) = 0 :=
      List.count_eq_zero.2 fun hw => by simpa using hnews _ hw
    rw [heq, List.count_append, hnone, count_invalidPaths, Nat.add_zero]
  count_kindConflict := count_kindConflict_ofEntries es
  count_fileWithChildren := count_fileWithChildren_ofEntries es
  count_message := List.count_map_of_injective _ message message_injective
  not_keptDirectory p hw := by simpa using mem_ofEntries es hw
  not_unknown p := ⟨fun hw => by simpa using mem_ofEntries es hw,
    fun hw => by simpa using mem_ofEntries es hw⟩

end Warning

end TreeSelection
