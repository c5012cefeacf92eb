import Mathlib.Data.List.Induction
import TreeSelection.Proofs.Json.Reading

namespace TreeSelection.Json

namespace Numeral

def digitsOf (n : Nat) : List Nat :=
  if n < 10 then [n] else digitsOf (n / 10) ++ [n % 10]

theorem digitsOf_of_lt {n : Nat} (h : n < 10) : digitsOf n = [n] := by
  rw [digitsOf, if_pos h]

theorem digitsOf_of_le {n : Nat} (h : 10 ≤ n) : digitsOf n = digitsOf (n / 10) ++ [n % 10] := by
  rw [digitsOf, if_neg (Nat.not_lt.2 h)]

theorem digitChars_digitsOf (n : Nat) : digitChars (digitsOf n) = Nat.toDigits 10 n := by
  induction n using Nat.strongRecOn with
  | ind n ih =>
    rcases Nat.lt_or_ge n 10 with h | h
    · rw [digitsOf_of_lt h, Nat.toDigits_of_lt_base h]
      rfl
    · rw [digitsOf_of_le h, Nat.toDigits_of_base_le (by decide) h, ← ih (n / 10) (by omega)]
      exact List.map_append

theorem toList_toString (n : Nat) : (toString n).toList = digitChars (digitsOf n) := by
  rw [digitChars_digitsOf]
  exact Nat.toList_repr

theorem digitsOf_ne_nil (n : Nat) : digitsOf n ≠ [] := by
  rw [digitsOf]
  split <;> simp

theorem lt_of_mem_digitsOf {n : Nat} : ∀ d ∈ digitsOf n, d < 10 := by
  induction n using Nat.strongRecOn with
  | ind n ih =>
    rcases Nat.lt_or_ge n 10 with h | h
    · simpa [digitsOf_of_lt h] using h
    · rw [digitsOf_of_le h]
      intro d hd
      rcases List.mem_append.1 hd with hd | hd
      · exact ih (n / 10) (by omega) d hd
      · obtain rfl := List.mem_singleton.1 hd
        exact Nat.mod_lt n (by decide)

theorem head?_digitsOf_ne_zero {n : Nat} (hn : 0 < n) : (digitsOf n).head? ≠ some 0 := by
  induction n using Nat.strongRecOn with
  | ind n ih =>
    rcases Nat.lt_or_ge n 10 with h | h
    · rw [digitsOf_of_lt h]
      simpa using Nat.ne_of_gt hn
    · rw [digitsOf_of_le h, List.head?_append,
        Option.or_of_isSome (List.isSome_head?.2 (digitsOf_ne_nil _))]
      exact ih (n / 10) (by omega) (by omega)

theorem isWhole_digitsOf (n : Nat) : IsWhole (digitsOf n) where
  digits := lt_of_mem_digitsOf
  ne_nil := digitsOf_ne_nil n
  no_leading_zero h := by
    rcases Nat.eq_zero_or_pos n with rfl | hn
    · exact digitsOf_of_lt (by decide)
    · exact absurd h (head?_digitsOf_ne_zero hn)

theorem appendDigits_concat {m k d : Nat} {ds : List Nat} : appendDigits m (ds ++ [d]) = (k, 0) ↔
    ∃ j, appendDigits m ds = (j, 0) ∧ j * 10 + d = k ∧ k < Nat.pow 2 64 := by
  induction ds generalizing m with
  | nil =>
    simp only [List.nil_append, appendDigits, Prod.mk.injEq, and_true, exists_eq_left']
    split
    · next hlt =>
      rw [Prod.mk.injEq, and_iff_left rfl]
      exact ⟨fun h => ⟨h, h ▸ hlt⟩, And.left⟩
    · next hle =>
      refine iff_of_false (fun h => nomatch (Prod.mk.inj h).2) ?_
      rintro ⟨rfl, hlt⟩
      exact hle hlt
  | cons e ds ih =>
    rw [List.cons_append, appendDigits, appendDigits]
    split
    · exact ih
    · simp

theorem appendDigits_digitsOf {n : Nat} (h : n < Nat.pow 2 64) :
    appendDigits 0 (digitsOf n) = (n, 0) := by
  induction n using Nat.strongRecOn with
  | ind n ih =>
    rcases Nat.lt_or_ge n 10 with h10 | h10
    · rw [digitsOf_of_lt h10]
      simp [appendDigits, h]
    · have hdiv : n / 10 * 10 + n % 10 = n := Nat.div_add_mod' n 10
      rw [digitsOf_of_le h10]
      exact appendDigits_concat.2 ⟨n / 10, ih (n / 10) (by omega) (by omega), hdiv, h⟩

theorem IsWhole.of_concat {ds : List Nat} {d : Nat} (h : IsWhole (ds ++ [d])) (hds : ds ≠ []) :
    IsWhole ds ∧ ds ≠ [0] := by
  have hhead : ds.head? ≠ some 0 := by
    intro hzero
    have hsingle := h.no_leading_zero (by rw [List.head?_append, hzero, Option.some_or])
    have hlength := congrArg List.length hsingle
    rw [List.length_append] at hlength
    exact hds (List.length_eq_zero_iff.1 (Nat.succ.inj hlength))
  refine ⟨⟨fun e he => h.digits e (List.mem_append_left _ he), hds, fun hzero => ?_⟩, ?_⟩
  · exact absurd hzero hhead
  · rintro rfl
    exact hhead rfl

theorem eq_digitsOf {ds : List Nat} {n : Nat} (hds : IsWhole ds) (h : appendDigits 0 ds = (n, 0)) :
    ds = digitsOf n ∧ n < Nat.pow 2 64 := by
  induction ds using List.reverseRecOn generalizing n with
  | nil => exact absurd rfl hds.ne_nil
  | append_singleton ds d ih =>
    obtain ⟨j, hj, rfl, hlt⟩ := appendDigits_concat.1 h
    have hd : d < 10 := hds.digits d (by simp)
    by_cases hnil : ds = []
    · subst hnil
      obtain ⟨rfl, -⟩ := Prod.mk.inj hj
      have hsum : 0 * 10 + d = d := by omega
      rw [hsum] at hlt ⊢
      exact ⟨(digitsOf_of_lt hd).symm, hlt⟩
    · obtain ⟨hwhole, hzero⟩ := hds.of_concat hnil
      obtain ⟨rfl, -⟩ := ih hwhole hj
      have hpos : j ≠ 0 := by
        rintro rfl
        exact hzero (digitsOf_of_lt (by decide))
      rw [digitsOf_of_le (by omega : 10 ≤ j * 10 + d)]
      have hdiv : (j * 10 + d) / 10 = j := by omega
      have hmod : (j * 10 + d) % 10 = d := by omega
      rw [hdiv, hmod]
      exact ⟨rfl, hlt⟩

theorem float_ne_nat (n : Numeral) (k : Nat) : n.float ≠ some (.nat k) := by
  intro h
  obtain ⟨x, -, ⟨⟩⟩ := Option.map_eq_some_iff.1 h

theorem value_eq_nat {n : Numeral} {k : Nat} (h : n.value = some (.nat k)) :
    n.negative = false ∧ n.fraction = [] ∧ n.exponent = none ∧
      appendDigits 0 n.whole = (k, 0) := by
  obtain ⟨negative, whole, fraction, exponent⟩ := n
  cases happend : appendDigits 0 whole with
  | mk m excess =>
    simp only [value, happend] at h
    split at h
    · next hinteger =>
      simp only [isInteger, Bool.and_eq_true, List.isEmpty_iff, Option.isNone_iff_eq_none,
        beq_iff_eq] at hinteger
      obtain ⟨⟨rfl, rfl⟩, rfl⟩ := hinteger
      cases negative with
      | false =>
        cases h
        exact ⟨rfl, rfl, rfl, rfl⟩
      | true =>
        simp only [Bool.not_true, Bool.false_eq_true, if_false] at h
        split at h
        · cases h
        · exact absurd h (float_ne_nat _ _)
    · exact absurd h (float_ne_nat _ _)

end Numeral

theorem spelled_nat {n : Nat} (h : n < Nat.pow 2 64) :
    (Token.number (some (.nat n))).Spelled (Number.nat n).text.toList := by
  have hvalue : (Numeral.mk false (Numeral.digitsOf n) [] none).value = some (.nat n) := by
    simp [Numeral.value, Numeral.appendDigits_digitsOf h, Numeral.isInteger]
  have hspelled : (Token.number (Numeral.mk false (Numeral.digitsOf n) [] none).value).Spelled _ :=
    .number (.parts (Numeral.isWhole_digitsOf n) .none .none)
  rwa [hvalue, List.append_nil, List.append_nil, ← Numeral.toList_toString] at hspelled

theorem written_nat_iff {n : Nat} {cs : List Char} :
    (Token.number (some (.nat n))).Written cs ↔ n < Nat.pow 2 64 ∧ cs = (toString n).toList := by
  constructor
  · rintro ⟨h⟩
    generalize htoken : Token.number (some (.nat n)) = t at h
    cases h with
    | @number m _ h =>
      obtain ⟨hnegative, hfraction, hexponent, happend⟩ :=
        Numeral.value_eq_nat (Token.number.inj htoken).symm
      cases h with
      | parts isWhole hf he =>
        cases hnegative
        cases hfraction
        cases hexponent
        cases hf with
        | none =>
          cases he with
          | none =>
            obtain ⟨hdigits, hlt⟩ := Numeral.eq_digitsOf isWhole happend
            refine ⟨hlt, ?_⟩
            rw [Numeral.toList_toString, ← hdigits]
            simp
        | some _ ne_nil => exact absurd rfl ne_nil
    | _ => cases htoken
  · rintro ⟨h, rfl⟩
    exact .spelled (spelled_nat h)

theorem codeUnit?_control : ∀ n < 0x20, codeUnit?
    (['0', '0'] ++ List.replicate (2 - (Text.hexadecimal n).length) '0' ++ Text.hexadecimal n) =
      some n := by
  decide

theorem charSpelled_escape (c : Char) : CharSpelled c (escape c) := by
  unfold escape
  split
  all_goals try exact .escape rfl
  next ne_quote ne_backslash _ _ _ _ _ =>
    split
    · next h => exact .unit (codeUnit?_control _ h)
    · next h => exact .plain (Nat.not_lt.1 h) ne_quote ne_backslash

theorem charsSpelled_escape (cs : List Char) : CharsSpelled cs (cs.flatMap escape) := by
  induction cs with
  | nil => exact .nil
  | cons c cs ih => exact .cons (charSpelled_escape c) ih

theorem spelled_textChars (s : String) : (Token.text (some s)).Spelled (textChars s) :=
  .text (charsSpelled_escape s.toList)

mutual

def NumbersSpelled : Json → Prop
  | .number n => (Token.number (some n)).Spelled n.text.toList
  | .array vs => ItemsSpelled vs
  | .object ms => MembersSpelled ms
  | .null | .bool _ | .text _ => True
termination_by structural v => v

def ItemsSpelled : List Json → Prop
  | [] => True
  | v :: vs => NumbersSpelled v ∧ ItemsSpelled vs
termination_by structural vs => vs

def MembersSpelled : List (String × Json) → Prop
  | [] => True
  | m :: ms => MemberSpelled m ∧ MembersSpelled ms
termination_by structural ms => ms

def MemberSpelled : String × Json → Prop
  | (_, v) => NumbersSpelled v
termination_by structural m => m

end

theorem membersSpelled_iff {ms : List (String × Json)} :
    MembersSpelled ms ↔ ∀ m ∈ ms, NumbersSpelled m.2 := by
  induction ms with
  | nil => simp [MembersSpelled]
  | cons m ms ih => rw [MembersSpelled, List.forall_mem_cons, ih, MemberSpelled]

theorem numbersSpelled_texts (l : List String) : NumbersSpelled (texts l) := by
  rw [texts, NumbersSpelled]
  induction l with
  | nil => trivial
  | cons s l ih => exact ⟨trivial, ih⟩

inductive IsPlain : Json → Prop
  | null : IsPlain .null
  | bool (b : Bool) : IsPlain (.bool b)
  | text (s : String) : IsPlain (.text s)
  | texts (l : List String) : IsPlain (.texts l)
  | nat {n : Nat} (h : n < Nat.pow 2 64) : IsPlain (.nat n)

theorem IsPlain.depth_le {v : Json} (h : v.IsPlain) : v.depth ≤ 1 := by
  cases h with
  | texts l => exact depth_texts l
  | _ => exact Nat.zero_le 1

theorem IsPlain.numbersSpelled {v : Json} (h : v.IsPlain) : NumbersSpelled v := by
  cases h with
  | texts l => exact numbersSpelled_texts l
  | nat h => exact spelled_nat h
  | _ => trivial

section

variable {ms : List (String × Json)} (h : ∀ m ∈ ms, m.2.IsPlain)
include h

theorem depth_object_le : depth (.object ms) ≤ 2 :=
  Nat.succ_le_succ (depthOfMembers_le_iff.2 fun m hm => (h m hm).depth_le)

theorem numbersSpelled_object : NumbersSpelled (.object ms) :=
  membersSpelled_iff.2 fun m hm => (h m hm).numbersSpelled

end

mutual

theorem spelled_compactChars :
    (v : Json) → NumbersSpelled v → Spelled (tokensOf v) (compactChars v)
  | .null, _ => Token.Spelled.null.only
  | .bool _, _ => Token.Spelled.bool.only
  | .number _, h => Token.Spelled.only h
  | .text s, _ => (spelled_textChars s).only
  | .array vs, h =>
    Token.Spelled.openArray.cons ((spelled_compactItems vs h).append Token.Spelled.closeArray.only)
  | .object ms, h =>
    Token.Spelled.openObject.cons
      ((spelled_compactMembers ms h).append Token.Spelled.closeObject.only)

theorem spelled_compactItems :
    (vs : List Json) → ItemsSpelled vs → Spelled (tokensOfItems vs) (compactItems vs)
  | [], _ => .nil isSpaces_nil
  | [v], h => spelled_compactChars v h.1
  | v :: w :: vs, h =>
    (spelled_compactChars v h.1).append
      (Token.Spelled.comma.cons (spelled_compactItems (w :: vs) h.2))

theorem spelled_compactMembers :
    (ms : List (String × Json)) → MembersSpelled ms →
      Spelled (tokensOfMembers ms) (compactMembers ms)
  | [], _ => .nil isSpaces_nil
  | [m], h => spelled_compactMember m h.1
  | m :: n :: ms, h =>
    (spelled_compactMember m h.1).append
      (Token.Spelled.comma.cons (spelled_compactMembers (n :: ms) h.2))

theorem spelled_compactMember :
    (m : String × Json) → MemberSpelled m → Spelled (tokensOfMember m) (compactMember m)
  | (name, v), h =>
    (spelled_textChars name).cons (Token.Spelled.colon.cons (spelled_compactChars v h))

end

theorem isText_compact {v : Json} (h : NumbersSpelled v) : IsText v v.compact := by
  rw [IsText, compact, String.toList_ofList]
  exact spelled_compactChars v h

theorem isSpaces_newline (level : Nat) : IsSpaces (newline level) := by
  intro c hc
  rcases List.mem_cons.1 hc with rfl | hc
  · rfl
  · rw [List.eq_of_mem_replicate hc]
    rfl

mutual

theorem spelled_prettyChars (level : Nat) :
    (v : Json) → NumbersSpelled v → Spelled (tokensOf v) (prettyChars level v)
  | .null, _ => Token.Spelled.null.only
  | .bool _, _ => Token.Spelled.bool.only
  | .number _, h => Token.Spelled.only h
  | .text s, _ => (spelled_textChars s).only
  | .array [], _ => Token.Spelled.openArray.cons Token.Spelled.closeArray.only
  | .object [], _ => Token.Spelled.openObject.cons Token.Spelled.closeObject.only
  | .array (v :: vs), h => by
    have hclose := Token.Spelled.closeArray.only.prepend_spaces (isSpaces_newline level)
    have hitems := spelled_prettyItems level (v :: vs) h
    rw [prettyChars, List.append_assoc]
    exact Token.Spelled.openArray.cons (hitems.append hclose)
  | .object (m :: ms), h => by
    have hclose := Token.Spelled.closeObject.only.prepend_spaces (isSpaces_newline level)
    have hmembers := spelled_prettyMembers level (m :: ms) h
    rw [prettyChars, List.append_assoc]
    exact Token.Spelled.openObject.cons (hmembers.append hclose)

theorem spelled_prettyItems (level : Nat) :
    (vs : List Json) → ItemsSpelled vs → Spelled (tokensOfItems vs) (prettyItems level vs)
  | [], _ => .nil isSpaces_nil
  | [v], h => (spelled_prettyChars (level + 1) v h.1).prepend_spaces (isSpaces_newline (level + 1))
  | v :: w :: vs, h => by
    have hspaces := isSpaces_newline (level + 1)
    have hvalue := (spelled_prettyChars (level + 1) v h.1).prepend_spaces hspaces
    have hitems := spelled_prettyItems level (w :: vs) h.2
    exact hvalue.append (Token.Spelled.comma.cons hitems)

theorem spelled_prettyMembers (level : Nat) :
    (ms : List (String × Json)) → MembersSpelled ms →
      Spelled (tokensOfMembers ms) (prettyMembers level ms)
  | [], _ => .nil isSpaces_nil
  | [m], h => (spelled_prettyMember (level + 1) m h.1).prepend_spaces (isSpaces_newline (level + 1))
  | m :: n :: ms, h => by
    have hspaces := isSpaces_newline (level + 1)
    have hmember := (spelled_prettyMember (level + 1) m h.1).prepend_spaces hspaces
    have hmembers := spelled_prettyMembers level (n :: ms) h.2
    exact hmember.append (Token.Spelled.comma.cons hmembers)

theorem spelled_prettyMember (level : Nat) :
    (m : String × Json) → MemberSpelled m → Spelled (tokensOfMember m) (prettyMember level m)
  | (name, v), h => by
    have hspace : IsSpaces [' '] := fun _ hc => List.mem_singleton.1 hc ▸ rfl
    have hvalue := (spelled_prettyChars level v h).prepend_spaces hspace
    exact (spelled_textChars name).cons (Token.Spelled.colon.cons hvalue)

end

theorem isText_pretty {v : Json} (h : NumbersSpelled v) : IsText v v.pretty := by
  rw [IsText, pretty, String.toList_ofList]
  exact spelled_prettyChars 0 v h

end TreeSelection.Json
