import TreeSelection.Proofs.List
import TreeSelection.Text.Quoted

namespace TreeSelection.Text

theorem digitChar_inj : ∀ a < 16, ∀ b < 16, Nat.digitChar a = Nat.digitChar b → a = b := by decide

theorem hexadecimal_of_lt {n : Nat} (h : n < 16) : hexadecimal n = [n.digitChar] :=
  Nat.toDigits_of_lt_base h

theorem hexadecimal_of_le {n : Nat} (h : 16 ≤ n) :
    hexadecimal n = hexadecimal (n / 16) ++ [(n % 16).digitChar] :=
  Nat.toDigits_of_base_le (by decide) h

theorem hexadecimal_ne_nil (n : Nat) : hexadecimal n ≠ [] := by
  rcases Nat.lt_or_ge n 16 with h | h
  · simp [hexadecimal_of_lt h]
  · simp [hexadecimal_of_le h]

theorem hexadecimal_injective : Function.Injective hexadecimal := by
  intro m n h
  induction m using Nat.strongRecOn generalizing n with
  | ind m ih =>
    rcases Nat.lt_or_ge m 16 with hm | hm <;> rcases Nat.lt_or_ge n 16 with hn | hn
    · rw [hexadecimal_of_lt hm, hexadecimal_of_lt hn] at h
      exact digitChar_inj m hm n hn (List.cons.inj h).1
    · rw [hexadecimal_of_lt hm, hexadecimal_of_le hn, ← List.nil_append [m.digitChar]] at h
      exact absurd (List.append_inj' h rfl).1.symm (hexadecimal_ne_nil _)
    · rw [hexadecimal_of_le hm, hexadecimal_of_lt hn, ← List.nil_append [n.digitChar]] at h
      exact absurd (List.append_inj' h rfl).1 (hexadecimal_ne_nil _)
    · rw [hexadecimal_of_le hm, hexadecimal_of_le hn] at h
      obtain ⟨hdiv, hmod⟩ := List.append_inj' h rfl
      have hdiv : m / 16 = n / 16 := ih (m / 16) (by omega) hdiv
      have hmod : m % 16 = n % 16 :=
        digitChar_inj _ (Nat.mod_lt _ (by decide)) _ (Nat.mod_lt _ (by decide))
          (List.cons.inj hmod).1
      omega

theorem closing_not_mem_hexadecimal (n : Nat) : '\x7d' ∉ hexadecimal n := by
  have hdigit : ∀ d < 16, '\x7d' ≠ Nat.digitChar d := by decide
  induction n using Nat.strongRecOn with
  | ind n ih =>
    rcases Nat.lt_or_ge n 16 with h | h
    · rw [hexadecimal_of_lt h, List.mem_singleton]
      exact hdigit n h
    · rw [hexadecimal_of_le h, List.mem_append, List.mem_singleton]
      exact not_or.2 ⟨ih (n / 16) (by omega), hdigit _ (Nat.mod_lt _ (by decide))⟩

def lettered : List (Char × Char) :=
  [('"', '"'), ('\\', '\\'), ('\x00', '0'), ('\t', 't'), ('\n', 'n'), ('\r', 'r')]

theorem fst_eq_of_mem_lettered : ∀ a ∈ lettered, ∀ b ∈ lettered, a.2 = b.2 → a.1 = b.1 := by
  decide

theorem snd_ne_of_mem_lettered : ∀ a ∈ lettered, a.2 ≠ 'u' := by decide

inductive Shows : Char → List Char → Prop
  | plain {c : Char} (ne_quote : c ≠ '"') (ne_backslash : c ≠ '\\') : Shows c [c]
  | letter {c e : Char} (h : (c, e) ∈ lettered) : Shows c ['\\', e]
  | number {c : Char} : Shows c ('\\' :: 'u' :: '\x7b' :: (hexadecimal c.toNat ++ ['\x7d']))

theorem shows_quotedChar (c : Char) : Shows c (quotedChar c) := by
  unfold quotedChar
  split
  all_goals try exact .letter (by decide)
  next ne_quote ne_backslash _ _ _ _ =>
    split
    · exact .number
    · exact .plain ne_quote ne_backslash

theorem Shows.head?_ne {c : Char} {cs : List Char} (h : Shows c cs) :
    ∃ d ds, cs = d :: ds ∧ d ≠ '"' := by
  cases h with
  | plain ne_quote => exact ⟨_, _, rfl, ne_quote⟩
  | letter | number => exact ⟨_, _, rfl, by decide⟩

theorem Shows.append_inj {c d : Char} {cs ds s t : List Char} (hc : Shows c cs) (hd : Shows d ds)
    (h : cs ++ s = ds ++ t) : c = d ∧ s = t := by
  cases hc with
  | plain _ hne =>
    cases hd with
    | plain => simpa using h
    | letter | number => exact absurd (List.cons.inj h).1 hne
  | letter hce =>
    cases hd with
    | plain _ hne => exact absurd (List.cons.inj h).1.symm hne
    | letter hde =>
      obtain ⟨he, hst⟩ := List.cons.inj (List.cons.inj h).2
      exact ⟨fst_eq_of_mem_lettered _ hce _ hde he, hst⟩
    | number => exact absurd (List.cons.inj (List.cons.inj h).2).1 (snd_ne_of_mem_lettered _ hce)
  | number =>
    cases hd with
    | plain _ hne => exact absurd (List.cons.inj h).1.symm hne
    | letter hde =>
      exact absurd (List.cons.inj (List.cons.inj h).2).1.symm (snd_ne_of_mem_lettered _ hde)
    | number =>
      simp only [List.cons_append, List.cons.injEq, true_and, List.append_assoc,
        List.nil_append] at h
      obtain ⟨hnumber, hst⟩ := List.append_cons_inj (closing_not_mem_hexadecimal _)
        (closing_not_mem_hexadecimal _) h
      exact ⟨Char.toNat_inj.1 (hexadecimal_injective hnumber), hst⟩

theorem flatMap_quotedChar_inj {cs ds s t : List Char}
    (h : cs.flatMap quotedChar ++ '"' :: s = ds.flatMap quotedChar ++ '"' :: t) :
    cs = ds ∧ s = t := by
  induction cs generalizing ds with
  | nil =>
    cases ds with
    | nil => simpa using h
    | cons d ds =>
      obtain ⟨e, es, hes, hne⟩ := (shows_quotedChar d).head?_ne
      simp only [List.flatMap_nil, List.nil_append, List.flatMap_cons, hes] at h
      exact absurd (List.cons.inj h).1.symm hne
  | cons c cs ih =>
    cases ds with
    | nil =>
      obtain ⟨e, es, hes, hne⟩ := (shows_quotedChar c).head?_ne
      simp only [List.flatMap_nil, List.nil_append, List.flatMap_cons, hes] at h
      exact absurd (List.cons.inj h).1 hne
    | cons d ds =>
      rw [List.flatMap_cons, List.flatMap_cons, List.append_assoc, List.append_assoc] at h
      obtain ⟨rfl, hrest⟩ := (shows_quotedChar c).append_inj (shows_quotedChar d) h
      obtain ⟨rfl, rfl⟩ := ih hrest
      exact ⟨rfl, rfl⟩

theorem append_quoted_inj {a b p q s t : String} (ha : '"' ∉ a.toList) (hb : '"' ∉ b.toList)
    (h : a ++ quoted p ++ s = b ++ quoted q ++ t) : a = b ∧ p = q ∧ s = t := by
  have hlist := congrArg String.toList h
  simp only [quoted, String.toList_append, String.toList_ofList, List.cons_append,
    List.append_assoc, List.nil_append] at hlist
  obtain ⟨hab, hrest⟩ := List.append_cons_inj ha hb hlist
  obtain ⟨hpq, hst⟩ := flatMap_quotedChar_inj hrest
  exact ⟨String.toList_inj.1 hab, String.toList_inj.1 hpq, String.toList_inj.1 hst⟩

end TreeSelection.Text
