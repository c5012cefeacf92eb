namespace TreeSelection

theorem lt_or_eq_or_gt (s t : String) : s < t ∨ s = t ∨ t < s := by
  by_cases h : s < t
  · exact .inl h
  · by_cases h' : t < s
    · exact .inr (.inr h')
    · exact .inr (.inl (String.le_antisymm (String.not_lt.1 h') (String.not_lt.1 h)))

/-- A set of texts: its members in strictly increasing order of their characters. -/
structure TextSet where
  toList : List String
  sorted : toList.Pairwise (· < ·)

namespace TextSet

instance : DecidableEq TextSet := fun s t =>
  decidable_of_iff (s.toList = t.toList) (by cases s; cases t; simp)

instance : Membership String TextSet where
  mem s p := p ∈ s.toList

theorem mem_def {s : TextSet} {p : String} : p ∈ s ↔ p ∈ s.toList := .rfl

instance (p : String) (s : TextSet) : Decidable (p ∈ s) :=
  inferInstanceAs (Decidable (p ∈ s.toList))

def contains (s : TextSet) (p : String) : Bool := s.toList.contains p

@[simp] theorem contains_eq {s : TextSet} {p : String} : s.contains p = decide (p ∈ s) := by
  simp [contains, mem_def]

theorem contains_iff {s : TextSet} {p : String} : s.contains p = true ↔ p ∈ s := by
  rw [contains_eq, decide_eq_true_iff]

theorem nodup (s : TextSet) : s.toList.Nodup := s.sorted.imp String.ne_of_lt

def empty : TextSet := ⟨[], .nil⟩

instance : Inhabited TextSet := ⟨empty⟩

instance : EmptyCollection TextSet := ⟨empty⟩

def isEmpty (s : TextSet) : Bool := s.toList.isEmpty

def size (s : TextSet) : Nat := s.toList.length

def insertText (p : String) : List String → List String
  | [] => [p]
  | q :: qs => if p < q then p :: q :: qs else if p = q then q :: qs else q :: insertText p qs

@[simp] theorem mem_insertText {p x : String} {l : List String} :
    x ∈ insertText p l ↔ x = p ∨ x ∈ l := by
  induction l with
  | nil => simp [insertText]
  | cons q qs ih =>
    simp only [insertText]
    split
    · simp
    · split
      · next h => subst h; simp
      · simp [ih, or_left_comm]

theorem sorted_insertText (p : String) {l : List String} (h : l.Pairwise (· < ·)) :
    (insertText p l).Pairwise (· < ·) := by
  induction l with
  | nil => simp [insertText]
  | cons q qs ih =>
    have ⟨hq, hqs⟩ := List.pairwise_cons.1 h
    simp only [insertText]
    split
    · next hp =>
      refine List.pairwise_cons.2 ⟨fun x hx => ?_, h⟩
      rcases List.mem_cons.1 hx with rfl | hx
      · exact hp
      · exact String.lt_trans hp (hq x hx)
    · split
      · exact h
      · next hp hne =>
        refine List.pairwise_cons.2 ⟨fun x hx => ?_, ih hqs⟩
        rcases mem_insertText.1 hx with rfl | hx
        · exact ((lt_or_eq_or_gt x q).resolve_left hp).resolve_left hne
        · exact hq x hx

def insert (p : String) (s : TextSet) : TextSet :=
  ⟨insertText p s.toList, sorted_insertText p s.sorted⟩

def filter (f : String → Bool) (s : TextSet) : TextSet := ⟨s.toList.filter f, s.sorted.filter f⟩

def erase (s : TextSet) (p : String) : TextSet := s.filter (· != p)

def ofList (ps : List String) : TextSet := ps.foldr insert empty

def union (s t : TextSet) : TextSet := s.toList.foldr insert t

@[simp] theorem not_mem_empty {p : String} : p ∉ (∅ : TextSet) := List.not_mem_nil

@[simp] theorem mem_insert {p x : String} {s : TextSet} : x ∈ s.insert p ↔ x = p ∨ x ∈ s :=
  mem_insertText

@[simp] theorem mem_filter {f : String → Bool} {s : TextSet} {x : String} :
    x ∈ s.filter f ↔ x ∈ s ∧ f x = true :=
  List.mem_filter

@[simp] theorem mem_erase {s : TextSet} {p x : String} : x ∈ s.erase p ↔ x ∈ s ∧ x ≠ p := by
  simp [erase]

@[simp] theorem mem_union {s t : TextSet} {x : String} : x ∈ s.union t ↔ x ∈ s ∨ x ∈ t := by
  show x ∈ s.toList.foldr insert t ↔ x ∈ s.toList ∨ x ∈ t
  induction s.toList with
  | nil => simp
  | cons p ps ih => simp [ih, or_assoc]

@[simp] theorem mem_ofList {ps : List String} {x : String} : x ∈ ofList ps ↔ x ∈ ps := by
  induction ps with
  | nil => exact iff_of_false not_mem_empty List.not_mem_nil
  | cons p ps ih => simp only [ofList, List.foldr_cons, mem_insert, List.mem_cons] at ih ⊢; rw [ih]

theorem eq_of_sorted {l m : List String} (hl : l.Pairwise (· < ·)) (hm : m.Pairwise (· < ·))
    (h : ∀ x, x ∈ l ↔ x ∈ m) : l = m := by
  induction l generalizing m with
  | nil =>
    cases m with
    | nil => rfl
    | cons q _ => exact absurd ((h q).2 (by simp)) (by simp)
  | cons p ps ih =>
    cases m with
    | nil => exact absurd ((h p).1 (by simp)) (by simp)
    | cons q qs =>
      have ⟨hp, hps⟩ := List.pairwise_cons.1 hl
      have ⟨hq, hqs⟩ := List.pairwise_cons.1 hm
      have key : p = q := by
        rcases List.mem_cons.1 ((h p).1 (by simp)) with rfl | hpq
        · rfl
        · rcases List.mem_cons.1 ((h q).2 (by simp)) with rfl | hqp
          · rfl
          · exact absurd (String.lt_trans (hq p hpq) (hp q hqp)) (String.lt_irrefl q)
      subst key
      congr 1
      refine ih hps hqs fun x => ⟨fun hx => ?_, fun hx => ?_⟩
      · rcases List.mem_cons.1 ((h x).1 (List.mem_cons_of_mem _ hx)) with rfl | h'
        · exact absurd (hp x hx) (String.lt_irrefl x)
        · exact h'
      · rcases List.mem_cons.1 ((h x).2 (List.mem_cons_of_mem _ hx)) with rfl | h'
        · exact absurd (hq x hx) (String.lt_irrefl x)
        · exact h'

theorem ext {s t : TextSet} (h : ∀ x, x ∈ s ↔ x ∈ t) : s = t := by
  obtain ⟨l, hl⟩ := s
  obtain ⟨m, hm⟩ := t
  obtain rfl := eq_of_sorted hl hm h
  rfl

theorem isEmpty_iff {s : TextSet} : s.isEmpty = true ↔ s = .empty := by
  cases s
  simp [isEmpty, empty]

def toggle (s : TextSet) (p : String) : TextSet := if p ∈ s then s.erase p else s.insert p

@[simp] theorem mem_toggle {s : TextSet} {p x : String} :
    x ∈ s.toggle p ↔ if x = p then p ∉ s else x ∈ s := by
  unfold toggle
  split <;> split <;> simp_all

end TextSet

end TreeSelection
