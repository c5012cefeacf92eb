import Mathlib.Data.List.DropRight
import Mathlib.Data.List.Infix
import Mathlib.Data.List.TakeWhile

namespace List

variable {α : Type*}

section Cutting

theorem append_cons_inj {a : α} {l l' s t : List α} (hl : a ∉ l) (hl' : a ∉ l')
    (h : l ++ a :: s = l' ++ a :: t) : l = l' ∧ s = t := by
  induction l generalizing l' with
  | nil =>
    cases l' with
    | nil => simpa using h
    | cons d l' => exact absurd (cons.inj h).1 (ne_of_not_mem_cons hl')
  | cons c l ih =>
    cases l' with
    | nil => exact absurd (cons.inj h).1.symm (ne_of_not_mem_cons hl)
    | cons d l' =>
      obtain ⟨rfl, hrest⟩ := cons.inj h
      obtain ⟨rfl, rfl⟩ := ih (not_mem_of_not_mem_cons hl) (not_mem_of_not_mem_cons hl')
        hrest
      exact ⟨rfl, rfl⟩

theorem exists_cut_concat {P : List α → α → List α → Prop} {l : List α} {a : α} :
    (∃ before x after, l ++ [a] = before ++ x :: after ∧ P before x after) ↔
      P l a [] ∨ ∃ before x after, l = before ++ x :: after ∧ P before x (after ++ [a]) := by
  constructor
  · rintro ⟨before, x, after, heq, h⟩
    rcases eq_nil_or_concat' after with rfl | ⟨after, b, rfl⟩
    · obtain ⟨rfl, rfl⟩ := append_singleton_inj.1 (by simpa using heq)
      exact .inl h
    · have heq : l ++ [a] = (before ++ x :: after) ++ [b] := by simpa using heq
      obtain ⟨rfl, rfl⟩ := append_singleton_inj.1 heq
      exact .inr ⟨before, x, after, rfl, h⟩
  · rintro (h | ⟨before, x, after, rfl, h⟩)
    · exact ⟨l, a, [], rfl, h⟩
    · exact ⟨before, x, after ++ [a], by simp, h⟩

theorem eq_of_infix_cons_concat {l m : List α} {x y : α} (hlen : l.length = m.length)
    (hx : l.head? ≠ some x) (hy : l.getLast? ≠ some y) (h : l <:+: x :: (m ++ [y])) : l = m := by
  by_cases hl : l = []
  · subst hl
    exact (length_eq_zero_iff.1 hlen.symm).symm
  · obtain ⟨u, v, heq⟩ := h
    cases u with
    | nil =>
      obtain ⟨z, l, rfl⟩ := exists_cons_of_ne_nil hl
      obtain ⟨rfl, -⟩ := cons.inj heq
      exact absurd rfl hx
    | cons z u =>
      have heq : u ++ l ++ v = m ++ [y] := (cons.inj heq).2
      rcases eq_nil_or_concat' v with rfl | ⟨v, w, rfl⟩
      · obtain ⟨l, w, rfl⟩ := (eq_nil_or_concat' l).resolve_left hl
        rw [append_nil, ← append_assoc] at heq
        obtain ⟨-, rfl⟩ := append_singleton_inj.1 heq
        exact absurd getLast?_concat hy
      · rw [← append_assoc] at heq
        obtain ⟨rfl, -⟩ := append_singleton_inj.1 heq
        simp only [length_append] at hlen
        have hu : u = [] := length_eq_zero_iff.1 (by omega)
        have hv : v = [] := length_eq_zero_iff.1 (by omega)
        rw [hu, hv, nil_append, append_nil]

end Cutting

section Dropping

theorem dropWhile_rdropWhile {p q : α → Bool} {cs : List α} (h : cs.dropWhile p = cs) :
    (cs.rdropWhile q).dropWhile p = cs.rdropWhile q := by
  rw [dropWhile_eq_self_iff] at h ⊢
  intro hlen
  rw [( rdropWhile_prefix q cs).getElem hlen]
  apply h

theorem rdropWhile_append {p : α → Bool} {us : List α} (h : us.rdropWhile p = us)
    (vs : List α) : (us ++ vs).rdropWhile p = us ++ vs.rdropWhile p := by
  rw [rdropWhile, reverse_append, dropWhile_append]
  split
  · next hnil =>
    have hvs : vs.rdropWhile p = [] := by simpa [rdropWhile] using hnil
    rw [hvs, append_nil]
    exact h
  · simp [rdropWhile]

theorem head?_rdropWhile {p : α → Bool} {cs : List α} (h : cs.rdropWhile p ≠ []) :
    (cs.rdropWhile p).head? = cs.head? := by
  obtain ⟨after, hafter⟩ := rdropWhile_prefix p cs
  conv_rhs => rw [← hafter]
  exact (head?_append_of_ne_nil _ h).symm

theorem dropWhile_rdropWhile_comm {p q : α → Bool} (hpq : ∀ c, p c = true → q c = false)
    (cs : List α) : (cs.rdropWhile q).dropWhile p = (cs.dropWhile p).rdropWhile q := by
  have hfront : ∀ c ∈ cs.takeWhile p, p c = true := fun c hc => mem_takeWhile_imp hc
  have hkept : (cs.takeWhile p).rdropWhile q = cs.takeWhile p := by
    rw [rdropWhile_eq_self_iff]
    exact fun hne => by simp [hpq _ (hfront _ (getLast_mem hne))]
  calc (cs.rdropWhile q).dropWhile p
    _ = ((cs.takeWhile p ++ cs.dropWhile p).rdropWhile q).dropWhile p := by
      rw [takeWhile_append_dropWhile]
    _ = ((cs.dropWhile p).rdropWhile q).dropWhile p := by
      rw [rdropWhile_append hkept, dropWhile_append_of_pos hfront]
    _ = (cs.dropWhile p).rdropWhile q :=
      dropWhile_rdropWhile (dropWhile_idempotent p cs)

end Dropping

section Splitting

theorem mem_of_mem_splitOnP {p : α → Bool} {l s : List α} (hs : s ∈ l.splitOnP p) :
    ∀ c ∈ s, c ∈ l ∧ p c = false := by
  induction l generalizing s with
  | nil => simp_all [splitOnP_nil]
  | cons x xs ih =>
    rw [splitOnP_cons_eq_if_modifyHead] at hs
    split at hs
    · rcases mem_cons.1 hs with rfl | hs
      · simp
      · exact fun c hc => ⟨mem_cons_of_mem _ (ih hs c hc).1, (ih hs c hc).2⟩
    · next hx =>
      obtain ⟨t, ts, hts⟩ := exists_cons_of_ne_nil (splitOnP_ne_nil p xs)
      rw [hts] at hs ih
      rcases mem_cons.1 hs with rfl | hs
      · intro c hc
        rcases mem_cons.1 hc with rfl | hc
        · exact ⟨by simp, by simpa using hx⟩
        · have := ih (by simp) c hc
          exact ⟨mem_cons_of_mem _ this.1, this.2⟩
      · have := ih (mem_cons_of_mem _ hs)
        exact fun c hc => ⟨mem_cons_of_mem _ (this c hc).1, (this c hc).2⟩

theorem intercalate_append {sep : α} {us vs : List (List α)} (hus : us ≠ []) (hvs : vs ≠ []) :
    [sep].intercalate (us ++ vs) = [sep].intercalate us ++ sep :: [sep].intercalate vs := by
  induction us with
  | nil => exact absurd rfl hus
  | cons u us ih =>
    cases us with
    | nil => simp [intercalate_cons_of_ne_nil hvs]
    | cons t us =>
      rw [cons_append, intercalate_cons_of_ne_nil (by simp), ih (by simp),
        intercalate_cons_cons]
      simp

theorem mem_or_infix_of_infix {sep x y : α} {cs w : List α} (hx : x ≠ sep) (hy : y ≠ sep)
    (h : sep :: (w ++ [sep]) <:+: sep :: (x :: (cs ++ [y]) ++ [sep])) :
    x ∈ w ∨ y ∈ w ∨ sep :: (w ++ [sep]) <:+: cs := by
  rcases infix_cons_iff.1 h with h | h
  · have h := (cons_prefix_cons.1 h).2
    cases w with
    | nil => exact absurd (cons_prefix_cons.1 h).1.symm hx
    | cons c w => exact .inl (by simp [(cons_prefix_cons.1 h).1])
  rcases infix_cons_iff.1 h with h | h
  · exact absurd (cons_prefix_cons.1 h).1.symm hx
  rcases infix_concat_iff.1 h with h | h
  · rw [← cons_append, suffix_append_self_iff] at h
    obtain ⟨t, ht, -⟩ := (suffix_concat_iff.1 h).resolve_left (by simp)
    have hmem : y ∈ sep :: w := by simp [ht]
    exact .inr (.inl ((mem_cons.1 hmem).resolve_left hy))
  rcases infix_concat_iff.1 h with h | h
  · obtain ⟨t, ht, -⟩ := (suffix_concat_iff.1 h).resolve_left (by simp)
    rw [← cons_append] at ht
    exact absurd (append_singleton_inj.1 ht).2.symm hy
  · exact .inr (.inr h)

variable [BEq α] [LawfulBEq α] {sep : α}

theorem intercalate_eq_append_cons_iff {ws : List (List α)} (hne : ws ≠ [])
    (h : ∀ w ∈ ws, sep ∉ w) {u v : List α} : [sep].intercalate ws = u ++ sep :: v ↔
      ∃ us vs, us ≠ [] ∧ vs ≠ [] ∧ ws = us ++ vs ∧ u = [sep].intercalate us ∧
        v = [sep].intercalate vs := by
  constructor
  · intro heq
    have hsplit : ws = u.splitOn sep ++ v.splitOn sep := by
      rw [← splitOn_append_cons_self, ← heq, splitOn_intercalate _ h hne]
    exact ⟨_, _, splitOn_ne_nil _ _, splitOn_ne_nil _ _, hsplit,
      (intercalate_splitOn sep).symm, (intercalate_splitOn sep).symm⟩
  · rintro ⟨us, vs, hus, hvs, rfl, rfl, rfl⟩
    exact intercalate_append hus hvs

theorem eq_singleton_of_not_mem {ws : List (List α)} (hne : ws ≠ []) (h : ∀ w ∈ ws, sep ∉ w)
    (hsep : sep ∉ [sep].intercalate ws) : ws = [[sep].intercalate ws] := by
  rw [← splitOn_eq_singleton hsep, splitOn_intercalate _ h hne]

theorem mem_splitOn_iff {cs w : List α} : w ∈ cs.splitOn sep ↔
    sep ∉ w ∧ sep :: (w ++ [sep]) <:+: sep :: (cs ++ [sep]) := by
  have hsep : ∀ w ∈ [[]] ++ (cs.splitOn sep ++ [[]]), sep ∉ w := by
    simp only [splitOn_eq_splitOnP, forall_mem_append, forall_mem_singleton]
    refine ⟨by simp, fun w hw hmem => ?_, by simp⟩
    simpa using (mem_of_mem_splitOnP hw sep hmem).2
  have hbetween : sep :: (cs ++ [sep]) = [sep].intercalate ([[]] ++ (cs.splitOn sep ++ [[]])) := by
    have hne : cs.splitOn sep ≠ [] := splitOn_ne_nil _ _
    rw [intercalate_append (by simp) (by simp [hne]), intercalate_append hne (by simp),
      intercalate_splitOn]
    rfl
  rw [hbetween]
  constructor
  · intro hw
    obtain ⟨us, vs, heq⟩ := append_of_mem hw
    have hpieces : [[]] ++ (cs.splitOn sep ++ [[]]) = ([] :: us) ++ ([w] ++ (vs ++ [[]])) := by
      simp [heq]
    refine ⟨hsep w (by simp [hw]), [sep].intercalate ([] :: us), [sep].intercalate (vs ++ [[]]),
      ?_⟩
    calc [sep].intercalate ([] :: us) ++ sep :: (w ++ [sep]) ++ [sep].intercalate (vs ++ [[]])
      _ = [sep].intercalate ([] :: us) ++ sep :: (w ++ sep :: [sep].intercalate (vs ++ [[]])) := by
        simp only [append_assoc, cons_append, nil_append]
      _ = [sep].intercalate ([] :: us) ++ sep :: [sep].intercalate ([w] ++ (vs ++ [[]])) := by
        rw [intercalate_append (cons_ne_nil w []) (by simp), intercalate_singleton]
      _ = [sep].intercalate ([[]] ++ (cs.splitOn sep ++ [[]])) := by
        rw [hpieces, intercalate_append (cons_ne_nil [] us) (by simp)]
  · rintro ⟨hw, u, v, heq⟩
    rw [append_assoc, cons_append, append_assoc, singleton_append] at heq
    obtain ⟨us, vs, hus, hvs, hpieces, -, heq⟩ :=
      (intercalate_eq_append_cons_iff (by simp) hsep).1 heq.symm
    rw [hpieces, forall_mem_append] at hsep
    obtain ⟨ws, xs, hws, hxs, rfl, rfl, -⟩ :=
      (intercalate_eq_append_cons_iff hvs hsep.2).1 heq.symm
    have hone :=
      eq_singleton_of_not_mem hws (fun x hx => hsep.2 x (mem_append_left _ hx)) hw
    obtain ⟨y, us, rfl⟩ := exists_cons_of_ne_nil hus
    obtain ⟨xs, z, rfl⟩ := (eq_nil_or_concat' xs).resolve_left hxs
    rw [← append_assoc, ← append_assoc, ← append_assoc] at hpieces
    have hcs : cs.splitOn sep = us ++ ws ++ xs := by
      obtain ⟨hpieces, -⟩ := append_singleton_inj.1 hpieces
      simpa using (cons.inj hpieces).2
    rw [hcs, hone]
    simp

end Splitting

end List
