namespace TreeSelection.Number

def divEven (a b : Nat) : Nat :=
  let q := a / b
  let r := a % b
  if 2 * r < b ∨ (2 * r = b ∧ q % 2 = 0) then q else q + 1

theorem divEven_near (a b : Nat) (hb : 0 < b) :
    2 * (divEven a b * b) ≤ 2 * a + b ∧ 2 * a ≤ 2 * (divEven a b * b) + b := by
  have hd := Nat.div_add_mod a b
  have hr := Nat.mod_lt a hb
  have hc : a / b * b = b * (a / b) := Nat.mul_comm _ _
  simp only [divEven]
  split
  · omega
  · rw [Nat.add_mul, Nat.one_mul]
    omega

theorem divEven_mul_right (q b : Nat) (hb : 0 < b) : divEven (q * b) b = q := by
  simp [divEven, Nat.mul_div_cancel _ hb, Nat.mul_mod_left, hb]

theorem divEven_le_iff {a b q : Nat} (hb : 0 < b) : divEven a b ≤ q ↔
    2 * a < (2 * q + 1) * b ∨ 2 * a = (2 * q + 1) * b ∧ q % 2 = 0 := by
  have ha : a = b * (a / b) + a % b := (Nat.div_add_mod a b).symm
  have hr := Nat.mod_lt a hb
  have hmul : (2 * q + 1) * b = 2 * (b * q) + b := by
    rw [Nat.add_mul, Nat.mul_assoc, Nat.one_mul, Nat.mul_comm q]
  rw [hmul, divEven]
  generalize a / b = k at ha ⊢
  generalize a % b = r at ha hr ⊢
  rcases Nat.lt_trichotomy k q with hlt | rfl | hlt
  · have hle := Nat.mul_le_mul_left b (Nat.succ_le_of_lt hlt)
    rw [Nat.mul_succ] at hle
    split <;> omega
  · split <;> omega
  · have hle := Nat.mul_le_mul_left b (Nat.succ_le_of_lt hlt)
    rw [Nat.mul_succ] at hle
    split <;> omega

theorem divEven_mono {a b c : Nat} (hc : 0 < c) (h : a ≤ b) : divEven a c ≤ divEven b c := by
  have hb := (divEven_le_iff hc).1 (Nat.le_refl (divEven b c))
  rw [divEven_le_iff hc]
  omega

def maxSize : Nat := Nat.pow 2 64 - 1

def capped (n : Nat) : Nat := min maxSize n

theorem capped_add_capped (a b : Nat) : capped (a + capped b) = capped (a + b) := by
  simp only [capped]
  omega

def total (sizes : List Nat) : Nat := sizes.foldr (· + ·) 0

@[simp] theorem total_cons (n : Nat) (sizes : List Nat) :
    total (n :: sizes) = n + total sizes := rfl

@[simp] theorem total_append (l m : List Nat) : total (l ++ m) = total l + total m := by
  induction l with
  | nil => simp [total]
  | cons n l ih => simp [ih, Nat.add_assoc]

def cappedTotal (sizes : List Nat) : Nat := sizes.foldl (fun sum size => capped (sum + size)) 0

theorem foldl_capped (sizes : List Nat) (n : Nat) :
    sizes.foldl (fun sum size => capped (sum + size)) (capped n) = capped (n + total sizes) := by
  induction sizes generalizing n with
  | nil => rfl
  | cons size sizes ih =>
    rw [List.foldl_cons, Nat.add_comm (capped n), capped_add_capped, ih, total_cons,
      Nat.add_comm size, Nat.add_assoc]

theorem cappedTotal_eq (sizes : List Nat) : cappedTotal sizes = capped (total sizes) := by
  have hfold := foldl_capped sizes 0
  rwa [Nat.zero_add] at hfold

end TreeSelection.Number
