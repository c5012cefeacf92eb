import TreeSelection.Glob.Matching

namespace TreeSelection.Glob

def Seq (A P : List Char → Prop) (w : List Char) : Prop := ∃ u v, w = u ++ v ∧ A u ∧ P v

theorem seq_nil {A P : List Char → Prop} : Seq A P [] ↔ A [] ∧ P [] := by
  constructor
  · rintro ⟨u, v, heq, hu, hv⟩
    obtain ⟨rfl, rfl⟩ := List.append_eq_nil_iff.1 heq.symm
    exact ⟨hu, hv⟩
  · rintro ⟨hu, hv⟩
    exact ⟨[], [], rfl, hu, hv⟩

theorem seq_cons {A P : List Char → Prop} {c : Char} {cs : List Char} :
    Seq A P (c :: cs) ↔ (A [] ∧ P (c :: cs)) ∨ Seq (fun u => A (c :: u)) P cs := by
  constructor
  · rintro ⟨u, v, heq, hu, hv⟩
    cases u with
    | nil =>
      obtain rfl : c :: cs = v := heq
      exact .inl ⟨hu, hv⟩
    | cons d u =>
      obtain ⟨rfl, rfl⟩ := List.cons.inj heq
      exact .inr ⟨u, v, rfl, hu, hv⟩
  · rintro (⟨hu, hv⟩ | ⟨u, v, rfl, hu, hv⟩)
    · exact ⟨[], c :: cs, rfl, hu, hv⟩
    · exact ⟨c :: u, v, rfl, hu, hv⟩

theorem seq_congr_left {A B P : List Char → Prop} {w : List Char} (h : ∀ u, A u ↔ B u) :
    Seq A P w ↔ Seq B P w := by
  simp [Seq, h]

theorem seq_congr_right {A P Q : List Char → Prop} {w : List Char} (h : ∀ v, P v ↔ Q v) :
    Seq A P w ↔ Seq A Q w := by
  simp [Seq, h]

theorem seq_assoc {A B P : List Char → Prop} {w : List Char} :
    Seq A (Seq B P) w ↔ Seq (Seq A B) P w := by
  constructor
  · rintro ⟨u, _, rfl, hu, v, x, rfl, hv, hx⟩
    exact ⟨u ++ v, x, (List.append_assoc u v x).symm, ⟨u, v, rfl, hu, hv⟩, hx⟩
  · rintro ⟨_, x, rfl, ⟨u, v, rfl, hu, hv⟩, hx⟩
    exact ⟨u, v ++ x, List.append_assoc u v x, hu, v, x, rfl, hv, hx⟩

theorem seq_or {A B P : List Char → Prop} {w : List Char} :
    Seq (fun u => A u ∨ B u) P w ↔ Seq A P w ∨ Seq B P w := by
  simp only [Seq]
  constructor
  · rintro ⟨u, v, rfl, hu | hu, hv⟩
    · exact .inl ⟨u, v, rfl, hu, hv⟩
    · exact .inr ⟨u, v, rfl, hu, hv⟩
  · rintro (⟨u, v, rfl, hu, hv⟩ | ⟨u, v, rfl, hu, hv⟩)
    · exact ⟨u, v, rfl, .inl hu, hv⟩
    · exact ⟨u, v, rfl, .inr hu, hv⟩

theorem seq_and {a : Prop} {A P : List Char → Prop} {w : List Char} :
    Seq (fun u => a ∧ A u) P w ↔ a ∧ Seq A P w := by
  constructor
  · rintro ⟨u, v, rfl, ⟨ha, hu⟩, hv⟩
    exact ⟨ha, u, v, rfl, hu, hv⟩
  · rintro ⟨ha, u, v, rfl, hu, hv⟩
    exact ⟨u, v, rfl, ⟨ha, hu⟩, hv⟩

theorem seq_or_right {A P Q : List Char → Prop} {w : List Char} :
    Seq A (fun v => P v ∨ Q v) w ↔ Seq A P w ∨ Seq A Q w := by
  constructor
  · rintro ⟨u, v, rfl, hu, hv | hv⟩
    · exact .inl ⟨u, v, rfl, hu, hv⟩
    · exact .inr ⟨u, v, rfl, hu, hv⟩
  · rintro (⟨u, v, rfl, hu, hv⟩ | ⟨u, v, rfl, hu, hv⟩)
    · exact ⟨u, v, rfl, hu, .inl hv⟩
    · exact ⟨u, v, rfl, hu, .inr hv⟩

@[simp] theorem seq_eq_nil {P : List Char → Prop} {w : List Char} : Seq (· = []) P w ↔ P w := by
  constructor
  · rintro ⟨u, v, rfl, rfl, hv⟩
    exact hv
  · exact fun hw => ⟨[], w, rfl, rfl, hw⟩

def IsOne (ok : Char → Bool) (u : List Char) : Prop := ∃ c, ok c = true ∧ u = [c]

theorem seq_isOne_cons {ok : Char → Bool} {P : List Char → Prop} {c : Char} {cs : List Char} :
    Seq (IsOne ok) P (c :: cs) ↔ ok c = true ∧ P cs := by
  have hone (u : List Char) : IsOne ok (c :: u) ↔ ok c = true ∧ u = [] := by
    constructor
    · rintro ⟨d, hd, heq⟩
      obtain ⟨rfl, rfl⟩ := List.cons.inj heq
      exact ⟨hd, rfl⟩
    · rintro ⟨hc, rfl⟩
      exact ⟨c, hc, rfl⟩
  rw [seq_cons, seq_congr_left hone, seq_and, seq_eq_nil]
  simp [IsOne]

theorem seq_head_slash {P : List Char → Prop} {w : List Char} :
    Seq (fun u => u.head? = some '/') P w ↔
      Seq (IsOne (· == '/')) (Seq (fun u => ∀ c ∈ u, true = true) P) w := by
  constructor
  · rintro ⟨u, v, rfl, hu, hv⟩
    obtain ⟨u, rfl⟩ := List.head?_eq_some_iff.1 hu
    exact ⟨['/'], u ++ v, rfl, ⟨'/', rfl, rfl⟩, u, v, rfl, fun _ _ => rfl, hv⟩
  · rintro ⟨_, _, rfl, ⟨c, hc, rfl⟩, u, v, rfl, -, hv⟩
    obtain rfl := eq_of_beq hc
    exact ⟨'/' :: u, v, rfl, rfl, hv⟩

namespace Row

inductive Tells (P : List Char → Prop) : List Char → List Bool → Prop
  | nil {b : Bool} (here : b = true ↔ P []) : Tells P [] [b]
  | cons {b : Bool} {c : Char} {cs : List Char} {row : List Bool} (here : b = true ↔ P (c :: cs))
      (rest : Tells P cs row) : Tells P (c :: cs) (b :: row)

variable {P Q : List Char → Prop} {cs : List Char} {row : List Bool}

theorem Tells.headD (h : Tells P cs row) : row.headD false = true ↔ P cs := by
  cases h with
  | nil here => exact here
  | cons here _ => exact here

theorem Tells.congr (h : Tells P cs row) (heq : ∀ w, P w ↔ Q w) : Tells Q cs row := by
  induction h with
  | nil here => exact .nil (here.trans (heq _))
  | cons here _ ih => exact .cons (here.trans (heq _)) ih

theorem tells_end (cs : List Char) : Tells (· = []) cs (cs.map (fun _ => false) ++ [true]) := by
  induction cs with
  | nil => exact .nil (by simp)
  | cons c cs ih => exact .cons (by simp) ih

theorem Tells.one (h : Tells P cs row) (ok : Char → Bool) :
    Tells (Seq (IsOne ok) P) cs (one ok cs row) := by
  induction h with
  | nil here => exact .nil (by simp [seq_nil, IsOne])
  | cons here rest ih =>
    exact .cons (by rw [seq_isOne_cons, Bool.and_eq_true, rest.headD]) ih

theorem Tells.many (h : Tells P cs row) (ok : Char → Bool) :
    Tells (Seq (fun u => ∀ c ∈ u, ok c = true) P) cs (many ok cs row) := by
  induction h with
  | nil here => exact .nil (by simpa [seq_nil] using here)
  | @cons b c cs row here rest ih =>
    refine .cons ?_ ih
    rw [seq_cons, seq_congr_left fun u => List.forall_mem_cons, seq_and, Bool.or_eq_true,
      Bool.and_eq_true, ih.headD, here]
    simp

theorem Tells.dirs (h : Tells P cs row) :
    Tells (Seq (fun u => u.getLast? = some '/') P) cs (dirs cs row) := by
  induction h with
  | nil here => exact .nil (by simp [seq_nil])
  | @cons b c cs row here rest ih =>
    refine .cons ?_ ih
    have hlast (u : List Char) :
        (c :: u).getLast? = some '/' ↔ (c = '/' ∧ u = []) ∨ u.getLast? = some '/' := by
      cases u <;> simp [List.getLast?_cons]
    rw [seq_cons, seq_congr_left hlast, seq_or, seq_and, seq_eq_nil, Bool.or_eq_true,
      Bool.and_eq_true, ih.headD, rest.headD]
    simp

theorem Tells.or {s : List Bool} (h : Tells P cs row) (h' : Tells Q cs s) :
    Tells (fun w => P w ∨ Q w) cs (or row s) := by
  induction h generalizing s with
  | nil here =>
    cases h' with
    | nil here' => exact .nil (by simp [here, here'])
  | cons here rest ih =>
    cases h' with
    | cons here' rest' => exact .cons (by simp [here, here']) (ih rest')

end Row

theorem Token.tells_row {P : List Char → Prop} {cs : List Char} {next : List Bool} (t : Token)
    (h : Row.Tells P cs next) : Row.Tells (Seq t.Admits P) cs (t.row cs next) := by
  have hdirs := h.dirs
  have hany := h.many fun _ => true
  cases t with
  | lit c => exact (h.one _).congr fun w => seq_congr_left fun u => by simp [IsOne, Token.Admits]
  | one => exact (h.one _).congr fun w => seq_congr_left fun u => by simp [IsOne, Token.Admits]
  | star =>
    refine (h.many _).congr fun w => seq_congr_left fun u => ?_
    simp [Token.Admits, List.forall_mem_ne']
  | anything => exact hany.congr fun w => seq_congr_left fun u => by simp [Token.Admits]
  | someDirs => exact hdirs
  | anyDirs => exact (h.or hdirs).congr fun w => by rw [← seq_eq_nil (P := P), ← seq_or]; rfl
  | subtree =>
    refine (h.or (hany.one (· == '/'))).congr fun w => ?_
    rw [← seq_head_slash, ← seq_eq_nil (P := P), ← seq_or]
    rfl

theorem tells_row (ts : List Token) (path : List Char) :
    Row.Tells (Matches ts) path (row path ts) := by
  induction ts with
  | nil => exact Row.tells_end path
  | cons t ts ih => exact t.tells_row ih

theorem accepts_iff {ts : List Token} {path : List Char} :
    accepts ts path = true ↔ Matches ts path :=
  (tells_row ts path).headD

end TreeSelection.Glob
