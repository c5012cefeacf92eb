import TreeSelection.Proofs.List
import TreeSelection.Text.LowerCase

/-!
Lower case of a text that stands in another. Only a capital sigma looks at what stands around it. A
text keeps its lower case wherever it stands if it settles by itself which of its sigmas end a word;
if it leaves one open, there is a place where its lower case is lost.
-/

namespace TreeSelection.Text

def endsWord (before after : List Char) : Bool := startsWithCased before && !startsWithCased after

def lowerAt (before after : List Char) (c : Char) : List Char :=
  if c = 'Σ' then if endsWord before after then ['ς'] else ['σ'] else lowerChar c

def lowerBetween (before after : List Char) : List Char → List Char
  | [] => []
  | c :: cs => lowerAt before (cs ++ after) c ++ lowerBetween (c :: before) after cs

variable {before after cs u v : List Char}

theorem lowerAfter_eq_lowerBetween (before cs : List Char) :
    lowerAfter before cs = lowerBetween before [] cs := by
  induction cs generalizing before with
  | nil => rfl
  | cons c cs ih => simp [lowerAfter, lowerBetween, lowerAt, endsWord, ih]

theorem toList_lowerCase (s : String) : (lowerCase s).toList = lowerBetween [] [] s.toList := by
  rw [lowerCase, String.toList_ofList, lowerAfter_eq_lowerBetween]

theorem lowerBetween_append (before after u v : List Char) :
    lowerBetween before after (u ++ v) =
      lowerBetween before (v ++ after) u ++ lowerBetween (u.reverse ++ before) after v := by
  induction u generalizing before with
  | nil => rfl
  | cons c u ih => simp [lowerBetween, ih]

theorem length_lowerAt (before after before' after' : List Char) (c : Char) :
    (lowerAt before after c).length = (lowerAt before' after' c).length := by
  unfold lowerAt
  split
  · split <;> split <;> rfl
  · rfl

theorem length_lowerBetween (before after before' after' cs : List Char) :
    (lowerBetween before after cs).length = (lowerBetween before' after' cs).length := by
  induction cs generalizing before before' with
  | nil => rfl
  | cons c cs ih =>
    rw [lowerBetween, lowerBetween, List.length_append, List.length_append, length_lowerAt, ih]

def IsMarks (cs : List Char) : Prop := ∀ c ∈ cs, caseIgnorable.contains c = true

instance (cs : List Char) : Decidable (IsMarks cs) :=
  decidable_of_iff (cs.all caseIgnorable.contains = true) (by simp [IsMarks])

theorem startsWithCased_append_of_isMarks (h : IsMarks cs) (rest : List Char) :
    startsWithCased (cs ++ rest) = startsWithCased rest := by
  rw [startsWithCased, List.dropWhile_append_of_pos h, startsWithCased]

theorem startsWithCased_append_of_not_isMarks (h : ¬ IsMarks cs) (rest : List Char) :
    startsWithCased (cs ++ rest) = startsWithCased cs := by
  have hne : cs.dropWhile caseIgnorable.contains ≠ [] := mt List.dropWhile_eq_nil_iff.1 h
  rw [startsWithCased, List.dropWhile_append, if_neg (by simpa using hne), startsWithCased]
  obtain ⟨c, cs, hcs⟩ := List.exists_cons_of_ne_nil hne
  rw [hcs]
  rfl

theorem IsMarks.startsWithCased_eq_false (h : IsMarks cs) : startsWithCased cs = false := by
  rw [← List.append_nil cs, startsWithCased_append_of_isMarks h]
  rfl

theorem startsWithCased_append_congr {rest rest' : List Char}
    (h : startsWithCased rest = startsWithCased rest') (cs : List Char) :
    startsWithCased (cs ++ rest) = startsWithCased (cs ++ rest') := by
  by_cases hcs : IsMarks cs
  · rw [startsWithCased_append_of_isMarks hcs, startsWithCased_append_of_isMarks hcs, h]
  · rw [startsWithCased_append_of_not_isMarks hcs, startsWithCased_append_of_not_isMarks hcs]

theorem lowerBetween_congr_after {after' : List Char}
    (h : startsWithCased after = startsWithCased after') (before cs : List Char) :
    lowerBetween before after cs = lowerBetween before after' cs := by
  induction cs generalizing before with
  | nil => rfl
  | cons c cs ih =>
    rw [lowerBetween, lowerBetween, ih, lowerAt, lowerAt, endsWord, endsWord,
      startsWithCased_append_congr h]

theorem startsWithCased_slash (cs : List Char) : startsWithCased ('/' :: cs) = false := by
  have hmark : caseIgnorable.contains '/' = false := by decide +kernel
  have hletter : casedLetters.contains '/' = false := by decide +kernel
  rw [startsWithCased, List.dropWhile_cons_of_neg (by simp [hmark])]
  exact hletter

theorem lowerCase_prefix_of_slash {s t : String} (h : (s ++ "/").toList <+: t.toList) :
    (lowerCase s).toList <+: (lowerCase t).toList := by
  obtain ⟨rest, hrest⟩ := h
  have hsplit : t.toList = s.toList ++ '/' :: rest := by simp [← hrest]
  have hend : startsWithCased ('/' :: rest) = startsWithCased [] := startsWithCased_slash rest
  rw [toList_lowerCase, toList_lowerCase, hsplit, lowerBetween_append, List.append_nil,
    lowerBetween_congr_after hend]
  exact List.prefix_append _ _

def Settles (before after : List Char) : Prop :=
  startsWithCased after = true ∨
    ¬ IsMarks before ∧ (startsWithCased before = false ∨ ¬ IsMarks after)

instance (before after : List Char) : Decidable (Settles before after) :=
  inferInstanceAs (Decidable (_ ∨ _))

theorem Settles.endsWord_append (h : Settles before after) (u v : List Char) :
    endsWord (before ++ u) (after ++ v) = endsWord before after := by
  rcases h with hletter | ⟨hbefore, hno | hafter⟩
  · have hafter : ¬ IsMarks after := fun hmarks => by
      simp [hmarks.startsWithCased_eq_false] at hletter
    rw [endsWord, endsWord, startsWithCased_append_of_not_isMarks hafter, hletter, Bool.not_true,
      Bool.and_false, Bool.and_false]
  · rw [endsWord, endsWord, startsWithCased_append_of_not_isMarks hbefore, hno, Bool.false_and,
      Bool.false_and]
  · rw [endsWord, endsWord, startsWithCased_append_of_not_isMarks hbefore,
      startsWithCased_append_of_not_isMarks hafter]

def SettledAfter (before : List Char) : List Char → Prop
  | [] => True
  | c :: cs => (c = 'Σ' → Settles before cs) ∧ SettledAfter (c :: before) cs

instance decidableSettledAfter : (before cs : List Char) → Decidable (SettledAfter before cs)
  | _, [] => inferInstanceAs (Decidable True)
  | before, c :: cs =>
    have := decidableSettledAfter (c :: before) cs
    inferInstanceAs (Decidable ((c = 'Σ' → Settles before cs) ∧ SettledAfter (c :: before) cs))

/-- The text settles by itself which of its sigmas end a word. -/
structure IsSettled (s : String) : Prop where
  settled : SettledAfter [] s.toList

instance (s : String) : Decidable (IsSettled s) :=
  decidable_of_iff (SettledAfter [] s.toList) ⟨.mk, IsSettled.settled⟩

theorem SettledAfter.lowerBetween_eq (h : SettledAfter before cs) (u v : List Char) :
    lowerBetween (before ++ u) v cs = lowerBetween before [] cs := by
  induction cs generalizing before with
  | nil => rfl
  | cons c cs ih =>
    have hc : lowerAt (before ++ u) (cs ++ v) c = lowerAt before cs c := by
      by_cases hsigma : c = 'Σ'
      · rw [lowerAt, lowerAt, (h.1 hsigma).endsWord_append]
      · rw [lowerAt, lowerAt, if_neg hsigma, if_neg hsigma]
    rw [lowerBetween, lowerBetween, hc, List.append_nil, ← ih h.2, List.cons_append]

theorem IsSettled.lowerCase_infix {s t : String} (h : IsSettled t) (ht : t.toList <:+: s.toList) :
    (lowerCase t).toList <:+: (lowerCase s).toList := by
  obtain ⟨u, v, huv⟩ := ht
  have hmiddle : lowerBetween u.reverse v t.toList = lowerBetween [] [] t.toList :=
    h.settled.lowerBetween_eq u.reverse v
  rw [toList_lowerCase, toList_lowerCase, ← huv, lowerBetween_append, lowerBetween_append,
    List.append_nil, List.append_nil, hmiddle]
  exact ⟨_, _, rfl⟩

theorem exists_sigma_of_not_settledAfter (h : ¬ SettledAfter before cs) :
    ∃ u v, cs = u ++ 'Σ' :: v ∧ ¬ Settles (u.reverse ++ before) v := by
  induction cs generalizing before with
  | nil => exact absurd trivial h
  | cons c cs ih =>
    rw [SettledAfter, not_and_or] at h
    rcases h with hc | hcs
    · obtain ⟨rfl, hsigma⟩ := Classical.not_imp.1 hc
      exact ⟨[], cs, rfl, hsigma⟩
    · obtain ⟨u, v, rfl, hsigma⟩ := ih hcs
      exact ⟨c :: u, v, rfl, by simpa using hsigma⟩

/-- Characters that are their own lower case: two letters, and two that end a word. -/
def borders : List Char := ['a', 'b', '+', '-']

theorem mem_borders {c : Char} : c ∈ borders ↔ c = 'a' ∨ c = 'b' ∨ c = '+' ∨ c = '-' := by
  simp [borders]

theorem lowerAt_of_mem_borders {c : Char} (hc : c ∈ borders) (before after : List Char) :
    lowerAt before after c = [c] := by
  have hborder : c ≠ 'Σ' ∧ lowerChar c = [c] := by
    rcases mem_borders.1 hc with rfl | rfl | rfl | rfl <;> decide +kernel
  rw [lowerAt, if_neg hborder.1, hborder.2]

theorem exists_borders_of_not_settles (h : ¬ Settles before after) :
    ∃ p ∈ borders, ∃ q ∈ borders, p ≠ q ∧ ∀ x ∈ ['a', 'b'], ∀ y ∈ [p, q],
      endsWord (before ++ [x]) (after ++ [y]) ≠ endsWord before after := by
  have hletter (x : Char) (hx : x ∈ ['a', 'b']) : startsWithCased [x] = true := by
    rcases List.mem_pair.1 hx with rfl | rfl <;> decide +kernel
  have hnone (y : Char) (hy : y ∈ ['+', '-']) : startsWithCased [y] = false := by
    rcases List.mem_pair.1 hy with rfl | rfl <;> decide +kernel
  rw [Settles, not_or, Bool.not_eq_true, not_and_or, not_not, not_or, not_not] at h
  obtain ⟨hafter, hbefore | ⟨hbefore, hmarks⟩⟩ := h
  · refine ⟨'+', by decide, '-', by decide, by decide, fun x hx y hy => ?_⟩
    have hend : startsWithCased (after ++ [y]) = startsWithCased (after ++ []) :=
      startsWithCased_append_congr (hnone y hy) after
    rw [endsWord, endsWord, startsWithCased_append_of_isMarks hbefore, hletter x hx, hend,
      List.append_nil, hafter, hbefore.startsWithCased_eq_false]
    decide
  · refine ⟨'a', by decide, 'b', by decide, by decide, fun x hx y hy => ?_⟩
    rw [Bool.not_eq_false] at hbefore
    rw [endsWord, endsWord, startsWithCased_append_of_isMarks hmarks, hletter y hy, hafter, hbefore]
    simp

theorem endsWord_eq_of_lowerBetween_eq {before' after' : List Char}
    (h : lowerBetween before after (u ++ 'Σ' :: v) =
      lowerBetween before' after' (u ++ 'Σ' :: v)) :
    endsWord (u.reverse ++ before) (v ++ after) =
      endsWord (u.reverse ++ before') (v ++ after') := by
  rw [lowerBetween_append, lowerBetween_append] at h
  obtain ⟨-, h⟩ := List.append_inj h (length_lowerBetween ..)
  rw [lowerBetween, lowerBetween] at h
  obtain ⟨h, -⟩ := List.append_inj h (length_lowerAt ..)
  simp only [lowerAt, if_pos] at h
  split at h <;> split at h <;> simp_all

/-- The lower case of a text that is not settled is lost between characters chosen for it. -/
theorem exists_borders_of_not_isSettled {t : String} (h : ¬ IsSettled t) :
    ∃ x ∈ borders, ∃ y ∈ borders, ¬ (lowerCase t).toList <:+:
      lowerBetween [] [] (x :: (t.toList ++ [y])) := by
  obtain ⟨u, v, hsplit, hsigma⟩ := exists_sigma_of_not_settledAfter (mt IsSettled.mk h)
  obtain ⟨p, hp, q, hq, hpq, hborders⟩ := exists_borders_of_not_settles hsigma
  have hchoice (o : Option Char) {c d : Char} (hcd : c ≠ d) : ∃ x ∈ [c, d], o ≠ some x := by
    by_cases ho : o = some c
    · exact ⟨d, by simp, fun hd => hcd (Option.some.inj (ho.symm.trans hd))⟩
    · exact ⟨c, by simp, ho⟩
  obtain ⟨x, hx, hhead⟩ := hchoice (lowerCase t).toList.head? (c := 'a') (d := 'b') (by decide)
  obtain ⟨y, hy, hlast⟩ := hchoice (lowerCase t).toList.getLast? hpq
  have hxb : x ∈ borders := List.mem_append_left ['+', '-'] hx
  have hyb : y ∈ borders := by
    rcases List.mem_pair.1 hy with rfl | rfl
    · exact hp
    · exact hq
  have hlower : lowerBetween [] [] (x :: (t.toList ++ [y])) =
      x :: (lowerBetween [x] [y] t.toList ++ [y]) := by
    simp [lowerBetween, lowerBetween_append, lowerAt_of_mem_borders hxb,
      lowerAt_of_mem_borders hyb]
  refine ⟨x, hxb, y, hyb, fun hinfix => ?_⟩
  rw [hlower] at hinfix
  have hlen : (lowerCase t).toList.length = (lowerBetween [x] [y] t.toList).length := by
    rw [toList_lowerCase]
    exact length_lowerBetween ..
  have heq := List.eq_of_infix_cons_concat hlen hhead hlast hinfix
  rw [toList_lowerCase, hsplit] at heq
  refine hborders x hx y hy ?_
  simpa using (endsWord_eq_of_lowerBetween_eq heq).symm

end TreeSelection.Text
