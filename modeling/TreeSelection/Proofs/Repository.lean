import Mathlib.Data.List.Infix
import Mathlib.Data.List.TakeWhile
import Mathlib.Data.Option.Basic
import TreeSelection.Repository.Text

namespace TreeSelection.Repository

variable {start w cs u : List Char}

theorem dropStart_append (start cs : List Char) : dropStart start (start ++ cs) = cs := by
  rw [dropStart, if_pos (List.isPrefixOf_iff_prefix.2 (List.prefix_append start cs)),
    List.drop_left]

theorem dropStart_eq_self (h : ¬ start <+: cs) : dropStart start cs = cs := by
  rw [dropStart, if_neg (mt List.isPrefixOf_iff_prefix.1 h)]

theorem dropEnd_append (ending cs : List Char) : dropEnd ending (cs ++ ending) = cs := by
  rw [dropEnd, if_pos (List.isSuffixOf_iff_suffix.2 (List.suffix_append cs ending)),
    List.length_append, Nat.add_sub_cancel, List.take_left]

theorem dropEnd_eq_self {ending : List Char} (h : ¬ ending <:+ cs) :
    dropEnd ending cs = cs := by
  rw [dropEnd, if_neg (mt List.isSuffixOf_iff_suffix.1 h)]

def dropStarts (starts : List String) (cs : List Char) : List Char :=
  starts.foldl (fun cs start => dropStart start.toList cs) cs

theorem dropStarts_eq_self {starts : List String}
    (h : ∀ start ∈ starts, ¬ start.toList <+: cs) : dropStarts starts cs = cs := by
  induction starts with
  | nil => rfl
  | cons start starts ih =>
    rw [List.forall_mem_cons] at h
    rw [dropStarts, List.foldl_cons, dropStart_eq_self h.1]
    exact ih h.2

def beforeQuery (cs : List Char) : List Char := cs.takeWhile fun c => c != '?' && c != '#'

theorem beforeQuery_append (h : beforeQuery u = u) (v : List Char) :
    beforeQuery (u ++ v) = u ++ beforeQuery v :=
  List.takeWhile_append_of_pos (List.takeWhile_eq_self_iff.1 h)

theorem beforeQuery_prefix_self (cs : List Char) : beforeQuery cs <+: cs := List.takeWhile_prefix _

def pieces (cs : List Char) : List (List Char) := (cs.splitOn '/').filter (· != [])

@[simp] theorem pieces_nil : pieces [] = [] := rfl

theorem pieces_append_slash (u v : List Char) : pieces (u ++ '/' :: v) = pieces u ++ pieces v := by
  simp only [pieces, List.splitOn_append_cons_self, List.filter_append]

theorem pieces_word (hne : w ≠ []) (h : '/' ∉ w) : pieces w = [w] := by
  simp [pieces, List.splitOn_eq_singleton h, hne]

theorem pieces_append_slashes (cs : List Char) (n : Nat) :
    pieces (cs ++ List.replicate n '/') = pieces cs := by
  induction n with
  | zero => rw [List.replicate_zero, List.append_nil]
  | succ n ih =>
    rw [List.replicate_succ', ← List.append_assoc, pieces_append_slash, ih, pieces_nil,
      List.append_nil]

theorem pieces_intercalate {ws : List (List Char)} (h : ∀ w ∈ ws, w ≠ [] ∧ '/' ∉ w) :
    pieces (['/'].intercalate ws) = ws := by
  by_cases hne : ws = []
  · rw [hne]
    rfl
  · rw [pieces, List.splitOn_intercalate _ (fun w hw => (h w hw).2) hne, List.filter_eq_self]
    intro w hw
    simpa using (h w hw).1

theorem pieces_append_of_not_mem (hne : w ≠ []) (h : '/' ∉ w) (cs : List Char) :
    ∃ first others, '/' ∉ first ∧ pieces (w ++ cs) = (w ++ first) :: others ∧
      pieces cs = pieces first ++ others := by
  by_cases hslash : '/' ∈ cs
  · obtain ⟨first, others, rfl, hfirst⟩ := List.eq_append_cons_of_mem hslash
    refine ⟨first, pieces others, hfirst, ?_, pieces_append_slash _ _⟩
    rw [← List.append_assoc, pieces_append_slash, pieces_word (by simp [hne]) (by simp [h, hfirst]),
      List.singleton_append]
  · exact ⟨cs, [], hslash, pieces_word (by simp [hne]) (by simp [h, hslash]), by simp⟩

theorem not_prefix_of_pieces {first : List Char} {others : List (List Char)} {c : Char}
    (hpieces : pieces cs = first :: others) (hc : c ∈ start.takeWhile (· != '/'))
    (hfirst : c ∉ first) : ¬ start <+: cs := by
  rintro ⟨tail, rfl⟩
  have hslash : '/' ∉ start.takeWhile (· != '/') := fun hmem => by
    simpa using List.mem_takeWhile_imp hmem
  obtain ⟨first', others', -, heq, -⟩ := pieces_append_of_not_mem (List.ne_nil_of_mem hc) hslash
    (start.dropWhile (· != '/') ++ tail)
  rw [← List.append_assoc, List.takeWhile_append_dropWhile, hpieces, List.cons.injEq] at heq
  exact hfirst (heq.1 ▸ List.mem_append_left _ hc)

theorem segments_eq (text : List Char) :
    segments text = pieces (dropStarts starts (beforeQuery (Text.trimmed text))) := rfl

theorem isNameChar_of_isName (h : isName w = true) : ∀ c ∈ w, isNameChar c = true := by
  rw [isName, Bool.and_eq_true, List.all_eq_true] at h
  exact h.2

inductive NamesRef : List (List Char) → Option String → Prop
  | absent : NamesRef [] none
  | given {kind : String} {ws : List (List Char)} (hkind : kind ∈ ["tree", "blob"])
      (hne : ws ≠ []) : NamesRef (kind.toList :: ws) (some ("/".intercalate (ws.map .ofList)))

inductive Names : List (List Char) → Repository → Prop
  | mk {owner written name : List Char} {rest : List (List Char)} {ref : Option String}
      (howner : isName owner = true) (hwritten : dropEnd ".git".toList written = name)
      (hname : isName name = true) (href : NamesRef rest ref) :
      Names (owner :: written :: rest) ⟨.ofList owner, .ofList name, ref⟩

theorem refOf_eq_some_iff {ws : List (List Char)} {ref : Option String} :
    refOf ws = some ref ↔ NamesRef ws ref := by
  constructor
  · intro h
    unfold refOf at h
    split at h
    · cases h
      exact .absent
    · next kind ws =>
      rw [Option.ite_none_right_eq_some, Bool.and_eq_true, Bool.or_eq_true, beq_iff_eq, beq_iff_eq,
        Bool.not_eq_true', List.isEmpty_eq_false_iff] at h
      obtain ⟨⟨rfl | rfl, hne⟩, href⟩ := h
      · cases href
        exact .given (by simp) hne
      · cases href
        exact .given (by simp) hne
  · intro h
    cases h with
    | absent => rfl
    | given hkind hne =>
      rw [refOf, if_pos]
      rw [Bool.and_eq_true, Bool.not_eq_true', List.isEmpty_eq_false_iff, Bool.or_eq_true,
        beq_iff_eq, beq_iff_eq]
      refine ⟨?_, hne⟩
      rw [List.mem_pair] at hkind
      exact hkind.imp (congrArg String.toList) (congrArg String.toList)

theorem ofText_eq_ok_iff {text : String} {r : Repository} :
    ofText text = .ok r ↔ Names (segments text.toList) r := by
  have hsome : ofText text = .ok r ↔ ofText? text = some r := by
    unfold ofText
    split
    · next r' h => rw [h, Except.ok.injEq, Option.some.injEq]
    · next h => simp [h]
  rw [hsome]
  unfold ofText?
  generalize segments text.toList = ws
  constructor
  · intro h
    split at h
    · next owner written rest =>
      simp only [Option.bind_eq_bind, Option.bind_eq_some_iff, Option.guard_eq_some',
        Bool.and_eq_true, Option.pure_def, Option.some.injEq] at h
      obtain ⟨-, ⟨howner, hname⟩, ref, href, rfl⟩ := h
      exact .mk howner rfl hname (refOf_eq_some_iff.1 href)
    · cases h
  · rintro ⟨howner, rfl, hname, href⟩
    simp only [howner, hname, refOf_eq_some_iff.2 href]
    rfl

end TreeSelection.Repository
