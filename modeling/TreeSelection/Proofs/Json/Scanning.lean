import Mathlib.Data.List.Chain
import TreeSelection.Proofs.Json.Spelling

/-!
Scanning a text undoes its spelling: whatever spellings were chosen for the tokens and whatever
spaces stand between them, the tokens are found again.
-/

namespace TreeSelection.Json

theorem digit?_digitChar {d : Nat} (h : d < 10) : digit? (Nat.digitChar d) = some d := by
  revert d
  decide

theorem digitChar_ne_sign {d : Nat} (h : d < 10) :
    Nat.digitChar d ≠ '+' ∧ Nat.digitChar d ≠ '-' := by
  revert d
  decide

theorem codeUnit?_eq_some {ds : List Char} {u : Nat} (h : codeUnit? ds = some u) :
    ∃ a b c d, ds = [a, b, c, d] ∧ (hexDigit? a).isSome ∧ (hexDigit? b).isSome ∧
      (hexDigit? c).isSome ∧ (hexDigit? d).isSome := by
  unfold codeUnit? at h
  split at h
  · next a b c d =>
    refine ⟨a, b, c, d, rfl, ?_⟩
    cases ha : hexDigit? a <;> cases hb : hexDigit? b <;> cases hc : hexDigit? c <;>
      cases hd : hexDigit? d <;> simp [ha, hb, hc, hd] at h ⊢
  · cases h

theorem utf8Size_of_hexDigit? {c : Char} (h : (hexDigit? c).isSome) : c.utf8Size = 1 := by
  have hascii : c.val ≤ 0x7f := by
    unfold hexDigit? at h
    split at h
    · next hdigit =>
      simp only [Char.isDigit, Bool.and_eq_true, decide_eq_true_eq] at hdigit
      exact UInt32.le_trans hdigit.2 (by decide)
    · split at h
      · next hlower => exact UInt32.le_trans hlower.2 (by decide)
      · split at h
        · next hupper => exact UInt32.le_trans hupper.2 (by decide)
        · cases h
  simp [Char.utf8Size, hascii]

theorem hexDigit?_lt {c : Char} {d : Nat} (h : hexDigit? c = some d) : d < 16 := by
  unfold hexDigit? at h
  split at h
  · next hdigit =>
    simp only [Char.isDigit, Bool.and_eq_true, decide_eq_true_eq] at hdigit
    have hle : c.toNat ≤ 57 := hdigit.2
    obtain rfl := Option.some.inj h
    show c.toNat - 48 < 16
    omega
  · split at h
    · next hlower =>
      have hle : c.toNat ≤ 102 := hlower.2
      obtain rfl := Option.some.inj h
      show c.toNat - 97 + 10 < 16
      omega
    · split at h
      · next hupper =>
        have hle : c.toNat ≤ 70 := hupper.2
        obtain rfl := Option.some.inj h
        show c.toNat - 65 + 10 < 16
        omega
      · cases h

theorem codeUnit?_lt {ds : List Char} {u : Nat} (h : codeUnit? ds = some u) : u < 0x10000 := by
  unfold codeUnit? at h
  split at h
  · next a b c d =>
    obtain ⟨wa, ha, h⟩ := Option.bind_eq_some_iff.1 h
    obtain ⟨wb, hb, h⟩ := Option.bind_eq_some_iff.1 h
    obtain ⟨wc, hc, h⟩ := Option.bind_eq_some_iff.1 h
    obtain ⟨wd, hd, h⟩ := Option.bind_eq_some_iff.1 h
    have := hexDigit?_lt ha
    have := hexDigit?_lt hb
    have := hexDigit?_lt hc
    have := hexDigit?_lt hd
    obtain rfl := Option.some.inj h
    omega
  · cases h

namespace Scan

def Stops (cs : List Char) : Prop :=
  ∀ c ∈ cs.head?, digit? c = none ∧ c ≠ '.' ∧ c ≠ 'e' ∧ c ≠ 'E'

theorem run_cons (s : Scan) (c : Char) (cs : List Char) :
    run s (c :: cs) = (s.feed c).1 ++ run (s.feed c).2 cs := rfl

theorem run_spaces {spaces : List Char} (h : IsSpaces spaces) (rest : List Char) :
    run .ready (spaces ++ rest) = run .ready rest := by
  induction spaces with
  | nil => rfl
  | cons c cs ih =>
    have hfirst : first c = ([], .ready) := if_pos (h c List.mem_cons_self)
    rw [List.cons_append, run_cons, feed, hfirst]
    exact ih fun d hd => h d (List.mem_cons_of_mem _ hd)

theorem run_word (token : Token) (rest : List Char) :
    run (.word [] token) rest = token :: run .ready rest := by
  cases rest with
  | nil => rfl
  | cons c cs => rfl

theorem run_word_append (word rest : List Char) (token : Token) :
    run (.word word token) (word ++ rest) = token :: run .ready rest := by
  induction word with
  | nil => exact run_word token rest
  | cons c cs ih =>
    rw [List.cons_append, run_cons, feed, if_pos (beq_self_eq_true c)]
    exact ih

section

variable {n n' : Numeral} {part part' : NumeralPart} {rest : List Char}

theorem run_numeral_cons {c : Char} (h : n.feed c part = some (part', n')) :
    run (.numeral part n) (c :: rest) = run (.numeral part' n') rest := by
  rw [run_cons]
  simp only [feed, h]
  rfl

theorem run_numeral_stop (hlast : part.isLast = true) (hrest : Stops rest) :
    run (.numeral part n) rest = .number n.value :: run .ready rest := by
  cases rest with
  | nil => simp [run, finish, hlast]
  | cons c cs =>
    obtain ⟨hdigit, hpoint, he, hE⟩ := hrest c rfl
    have hfeed : n.feed c part = none := by
      cases part <;> simp_all [Numeral.feed, Numeral.feed.afterWhole, Numeral.feed.addDigit,
        NumeralPart.isLast]
    have hisDigit : c.isDigit = false := by simpa [digit?] using hdigit
    rw [run_cons]
    simp [feed, hfeed, hlast, hisDigit]
    rfl

theorem run_numeral_digits (mk : List Nat → Numeral)
    (hfeed : ∀ ds d, d < 10 → (mk ds).feed (Nat.digitChar d) part = some (part, mk (ds ++ [d])))
    (ds : List Nat) {es : List Nat} (hes : ∀ d ∈ es, d < 10) (rest : List Char) :
    run (.numeral part (mk ds)) (Numeral.digitChars es ++ rest) =
      run (.numeral part (mk (ds ++ es))) rest := by
  induction es generalizing ds with
  | nil => simp [Numeral.digitChars]
  | cons d es ih =>
    obtain ⟨hd, hes⟩ := List.forall_mem_cons.1 hes
    show run _ (Nat.digitChar d :: (Numeral.digitChars es ++ rest)) = _
    rw [run_numeral_cons (hfeed ds d hd), ih _ hes, List.append_assoc]
    rfl

end

section

variable (negative : Bool) {whole fraction : List Nat} {part : NumeralPart} (rest : List Char)

theorem first_digitChar {d : Nat} (h : d < 10) : first (Nat.digitChar d) =
    ([], .numeral (if d = 0 then .zero else .whole) ⟨false, [d], [], none⟩) := by
  revert d
  decide

theorem run_first_digit {d : Nat} (h : d < 10) :
    run .ready ((if negative then ['-'] else []) ++ Nat.digitChar d :: rest) =
      run (.numeral (if d = 0 then .zero else .whole) ⟨negative, [d], [], none⟩) rest := by
  cases negative with
  | false =>
    show run .ready (Nat.digitChar d :: rest) = _
    rw [run_cons, feed, first_digitChar h]
    rfl
  | true =>
    have hfeed : Numeral.feed ⟨true, [], [], none⟩ (Nat.digitChar d) .sign =
        some (if d = 0 then .zero else .whole, ⟨true, [d], [], none⟩) := by
      simp [Numeral.feed, digit?_digitChar h]
    exact run_numeral_cons hfeed

theorem run_whole (h : Numeral.IsWhole whole) :
    ∃ part, (part = .zero ∨ part = .whole) ∧
      run .ready ((if negative then ['-'] else []) ++ (Numeral.digitChars whole ++ rest)) =
        run (.numeral part ⟨negative, whole, [], none⟩) rest := by
  obtain ⟨d, ds, rfl⟩ := List.exists_cons_of_ne_nil h.ne_nil
  obtain ⟨hd, hds⟩ := List.forall_mem_cons.1 h.digits
  have hfirst := run_first_digit negative (Numeral.digitChars ds ++ rest) hd
  by_cases hzero : d = 0
  · obtain rfl : ds = [] := by simpa [hzero] using h.no_leading_zero
    rw [if_pos hzero] at hfirst
    exact ⟨.zero, .inl rfl, hfirst⟩
  · rw [if_neg hzero] at hfirst
    refine ⟨.whole, .inr rfl, hfirst.trans ?_⟩
    refine run_numeral_digits (⟨negative, ·, [], none⟩) (fun es e he => ?_) [d] hds rest
    simp [Numeral.feed, digit?_digitChar he]

def TakesExponent (part : NumeralPart) : Prop := part = .zero ∨ part = .whole ∨ part = .fraction

theorem run_fraction (hpart : part = .zero ∨ part = .whole) {fs : List Char}
    (h : Numeral.FractionSpelled fraction fs) :
    ∃ part', TakesExponent part' ∧
      run (.numeral part ⟨negative, whole, [], none⟩) (fs ++ rest) =
        run (.numeral part' ⟨negative, whole, fraction, none⟩) rest := by
  cases h with
  | none => exact ⟨part, hpart.imp_right .inl, rfl⟩
  | some digits ne_nil =>
    obtain ⟨d, ds, rfl⟩ := List.exists_cons_of_ne_nil ne_nil
    obtain ⟨hd, hds⟩ := List.forall_mem_cons.1 digits
    have hpoint : Numeral.feed ⟨negative, whole, [], none⟩ '.' part =
        some (.point, ⟨negative, whole, [], none⟩) := by
      rcases hpart with rfl | rfl <;> rfl
    have hdigit : Numeral.feed ⟨negative, whole, [], none⟩ (Nat.digitChar d) .point =
        some (.fraction, ⟨negative, whole, [d], none⟩) := by
      simp [Numeral.feed, digit?_digitChar hd]
    refine ⟨.fraction, .inr (.inr rfl), ?_⟩
    show run _ ('.' :: Nat.digitChar d :: (Numeral.digitChars ds ++ rest)) = _
    rw [run_numeral_cons hpoint, run_numeral_cons hdigit]
    refine run_numeral_digits (⟨negative, whole, ·, none⟩) (fun es e he => ?_) [d] hds rest
    simp [Numeral.feed, digit?_digitChar he]

theorem feed_mark {n : Numeral} {mark : Char} (hpart : TakesExponent part)
    (hmark : mark = 'e' ∨ mark = 'E') : n.feed mark part = some (.mark, n) := by
  rcases hpart with rfl | rfl | rfl <;> rcases hmark with rfl | rfl <;> rfl

theorem run_exponent_digits {below : Bool} {sign : List Char} (hsign : sign ∈ Numeral.signs below)
    {ds : List Nat} (digits : ∀ d ∈ ds, d < 10) (ne_nil : ds ≠ []) :
    run (.numeral .mark ⟨negative, whole, fraction, none⟩)
        (sign ++ (Numeral.digitChars ds ++ rest)) =
      run (.numeral .exponent ⟨negative, whole, fraction, some (below, ds)⟩) rest := by
  let mk (below : Bool) (ds : List Nat) : Numeral := ⟨negative, whole, fraction, some (below, ds)⟩
  have hfeed {part : NumeralPart} (hpart : part = .markSign ∨ part = .exponent) (below : Bool)
      (es : List Nat) {e : Nat} (he : e < 10) :
      (mk below es).feed (Nat.digitChar e) part = some (.exponent, mk below (es ++ [e])) := by
    rcases hpart with rfl | rfl <;>
      simp [mk, Numeral.feed, Numeral.feed.addDigit, digit?_digitChar he]
  obtain ⟨d, ds, rfl⟩ := List.exists_cons_of_ne_nil ne_nil
  obtain ⟨hd, hds⟩ := List.forall_mem_cons.1 digits
  have hmore (below : Bool) := run_numeral_digits (mk below)
    (fun es e he => hfeed (.inr rfl) below es he) [d] hds rest
  have hsigned (below : Bool) :
      run (.numeral .markSign (mk below [])) (Nat.digitChar d :: (Numeral.digitChars ds ++ rest)) =
        run (.numeral .exponent (mk below (d :: ds))) rest :=
    (run_numeral_cons (hfeed (.inl rfl) below [] hd)).trans (hmore below)
  cases below with
  | true =>
    obtain rfl := List.mem_singleton.1 hsign
    exact (run_numeral_cons rfl).trans (hsigned true)
  | false =>
    rcases List.mem_cons.1 hsign with rfl | hsign
    · have hdigit : Numeral.feed ⟨negative, whole, fraction, none⟩ (Nat.digitChar d) .mark =
          some (.exponent, mk false [d]) := by
        simp [mk, Numeral.feed, digitChar_ne_sign hd, digit?_digitChar hd]
      exact (run_numeral_cons hdigit).trans (hmore false)
    · obtain rfl := List.mem_singleton.1 hsign
      exact (run_numeral_cons rfl).trans (hsigned false)

theorem run_exponent (hpart : TakesExponent part) {exponent : Option (Bool × List Nat)}
    {es : List Char} (h : Numeral.ExponentSpelled exponent es) :
    ∃ part', part'.isLast = true ∧
      run (.numeral part ⟨negative, whole, fraction, none⟩) (es ++ rest) =
        run (.numeral part' ⟨negative, whole, fraction, exponent⟩) rest := by
  cases h with
  | none => exact ⟨part, by rcases hpart with rfl | rfl | rfl <;> rfl, rfl⟩
  | some mark_eq mem_signs digits ne_nil =>
    refine ⟨.exponent, rfl, ?_⟩
    rw [List.cons_append, List.append_assoc, run_numeral_cons (feed_mark hpart mark_eq)]
    exact run_exponent_digits negative rest mem_signs digits ne_nil

end

theorem run_numeral {n : Numeral} {cs rest : List Char} (h : n.Spelled cs) (hrest : Stops rest) :
    run .ready (cs ++ rest) = .number n.value :: run .ready rest := by
  cases h with
  | @parts negative whole fraction exponent fs es isWhole hfraction hexponent =>
    obtain ⟨part₁, hpart₁, hrun₁⟩ := run_whole negative (fs ++ (es ++ rest)) isWhole
    obtain ⟨part₂, hpart₂, hrun₂⟩ := run_fraction negative (es ++ rest) hpart₁ hfraction
    obtain ⟨part₃, hpart₃, hrun₃⟩ := run_exponent negative rest hpart₂ hexponent
    simp only [List.append_assoc]
    rw [hrun₁, hrun₂, hrun₃, run_numeral_stop hpart₃ hrest]

section

variable {before : List Char} {rest : List Char}

def whole (before : List Char) : Unfinished := ⟨before, none, false⟩

def waiting (before : List Char) (lead : Nat) : Unfinished := ⟨before, some lead, false⟩

theorem run_plain (t : Unfinished) {c : Char} (not_control : 0x20 ≤ c.toNat) (ne_quote : c ≠ '"')
    (ne_backslash : c ≠ '\\') :
    run (.plain t) (c :: rest) = run (.plain (t.abandon.push c)) rest := by
  have hfeed : (Scan.plain t).feed c = ([], .plain (t.abandon.push c)) := by
    simp [feed, inText, ne_backslash, ne_quote, Nat.not_lt.2 not_control]
  rw [run_cons, hfeed]
  rfl

theorem run_escape (t : Unfinished) {c d : Char} (h : unescape? d = some c) :
    run (.plain t) ('\\' :: d :: rest) = run (.plain (t.abandon.push c)) rest := by
  have hu : d ≠ 'u' := by
    rintro rfl
    cases h
  have hfeed : (Scan.escape t).feed d = ([], .plain (t.abandon.push c)) := by
    simp [feed, inEscape, hu, h]
  show run (.escape t) (d :: rest) = _
  rw [run_cons, hfeed]
  rfl

theorem run_codeUnit (t : Unfinished) {ds : List Char} {u : Nat} (h : codeUnit? ds = some u) :
    run (.plain t) ('\\' :: 'u' :: (ds ++ rest)) = run (.plain (t.unit u)) rest := by
  obtain ⟨a, b, c, d, rfl, ha, hb, hc, hd⟩ := codeUnit?_eq_some h
  have hsizes := And.intro (utf8Size_of_hexDigit? ha) <| And.intro (utf8Size_of_hexDigit? hb) <|
    And.intro (utf8Size_of_hexDigit? hc) (utf8Size_of_hexDigit? hd)
  have first : (Scan.unicode t []).feed a = ([], .unicode t [a]) := by
    simp [feed, inUnicode, hsizes]
  have second : (Scan.unicode t [a]).feed b = ([], .unicode t [a, b]) := by
    simp [feed, inUnicode, hsizes]
  have third : (Scan.unicode t [a, b]).feed c = ([], .unicode t [a, b, c]) := by
    simp [feed, inUnicode, hsizes]
  have fourth : (Scan.unicode t [a, b, c]).feed d = ([], .plain (t.unit u)) := by
    simp [feed, inUnicode, hsizes, h]
  show run (.unicode t []) (a :: b :: c :: d :: rest) = _
  simp only [run_cons, first, second, third, fourth, List.nil_append]

theorem run_close (t : Unfinished) :
    run (.plain t) ('"' :: rest) = t.abandon.token :: run .ready rest := by
  rw [run_cons]
  rfl

theorem not_surrogate (c : Char) : c.toNat < 0xd800 ∨ 0xdfff < c.toNat :=
  c.valid.imp id And.left

def IsLead (u : Nat) : Prop := 0xd800 ≤ u ∧ u ≤ 0xdbff

def IsTrail (u : Nat) : Prop := 0xdc00 ≤ u ∧ u ≤ 0xdfff

theorem unit_whole_of_not_isLead {u : Nat} (hlead : ¬IsLead u) (htrail : ¬IsTrail u) :
    (whole before).unit u = whole (.ofNat u :: before) := by
  rw [IsLead] at hlead
  rw [IsTrail] at htrail
  simp only [Unfinished.unit, whole, if_neg htrail, if_neg hlead, Unfinished.push]

theorem unit_whole_of_isLead {u : Nat} (h : IsLead u) :
    (whole before).unit u = waiting before u := by
  have htrail : ¬(0xdc00 ≤ u ∧ u ≤ 0xdfff) := by
    have := h.2
    omega
  simp only [Unfinished.unit, whole, waiting, if_neg htrail, if_pos (show _ ∧ _ from h)]

theorem unit_waiting {lead trail : Nat} (h : IsTrail trail) : (waiting before lead).unit trail =
    whole (.ofNat (0x10000 + (lead - 0xd800) * 0x400 + (trail - 0xdc00)) :: before) := by
  simp only [Unfinished.unit, whole, waiting, if_pos (show _ ∧ _ from h), Unfinished.push]

theorem unit_toNat (c : Char) : (whole before).unit c.toNat = whole (c :: before) := by
  have hchar := not_surrogate c
  rw [unit_whole_of_not_isLead, Char.ofNat_toNat]
  · rw [IsLead]
    omega
  · rw [IsTrail]
    omega

theorem run_char {c : Char} {cs : List Char} (h : CharSpelled c cs) :
    run (.plain (whole before)) (cs ++ rest) = run (.plain (whole (c :: before))) rest := by
  cases h with
  | plain not_control ne_quote ne_backslash => exact run_plain _ not_control ne_quote ne_backslash
  | escape h => exact run_escape _ h
  | unit h => exact (run_codeUnit _ h).trans (by rw [unit_toNat])
  | @pair ds es lead trail hlead htrail isLead isTrail toNat_eq =>
    rw [List.append_assoc]
    show run _ ('\\' :: 'u' :: (ds ++ ('\\' :: 'u' :: (es ++ rest)))) = _
    rw [run_codeUnit _ hlead, run_codeUnit _ htrail, unit_whole_of_isLead isLead,
      unit_waiting isTrail, ← toNat_eq, Char.ofNat_toNat]

theorem run_chars {s cs : List Char} (h : CharsSpelled s cs) :
    run (.plain (whole before)) (cs ++ rest) = run (.plain (whole (s.reverse ++ before))) rest := by
  induction h generalizing before with
  | nil => rfl
  | cons head _ ih =>
    rw [List.append_assoc, run_char head, ih, List.reverse_cons, List.append_assoc]
    rfl

theorem run_text {s : String} {cs : List Char} (h : CharsSpelled s.toList cs) :
    run .ready ('"' :: (cs ++ '"' :: rest)) = .text (some s) :: run .ready rest := by
  show run (.plain (whole [])) (cs ++ '"' :: rest) = _
  rw [run_chars h, List.append_nil, run_close]
  simp [whole, Unfinished.abandon, Unfinished.token]

theorem faulty_abandon {t : Unfinished} (h : t.faulty = true) : t.abandon.faulty = true := by
  rw [Unfinished.abandon]
  split
  · rfl
  · exact h

theorem faulty_unit {t : Unfinished} (h : t.faulty = true) (u : Nat) :
    (t.unit u).faulty = true := by
  simp only [Unfinished.unit]
  split
  · split
    · exact h
    · rfl
  · split
    · rfl
    · split <;> exact h

theorem run_faulty {t : Unfinished} {cs : List Char} (h : IsBody cs) (hfaulty : t.faulty = true) :
    run (.plain t) (cs ++ '"' :: rest) = .text none :: run .ready rest := by
  induction h generalizing t with
  | nil =>
    have htoken : t.abandon.token = .text none := by
      rw [Unfinished.token, if_pos (faulty_abandon hfaulty)]
    rw [List.nil_append, run_close, htoken]
  | plain not_control ne_quote ne_backslash _ ih =>
    exact (run_plain t not_control ne_quote ne_backslash).trans (ih (faulty_abandon hfaulty))
  | escape h _ ih => exact (run_escape t h).trans (ih (faulty_abandon hfaulty))
  | unit h _ ih =>
    rw [List.cons_append, List.cons_append, List.append_assoc, run_codeUnit t h]
    exact ih (faulty_unit hfaulty _)

inductive EndsPair : List Char → Prop
  | trail {ds es s : List Char} {u : Nat} (h : codeUnit? ds = some u) (isTrail : IsTrail u)
      (tail : CharsSpelled s es) : EndsPair ('\\' :: 'u' :: (ds ++ es))

theorem toNat_ofNat {n : Nat} (h : n.isValidChar) : (Char.ofNat n).toNat = n := by
  rw [Char.ofNat, dif_pos h]
  rfl

theorem toNat_ofPair {lead trail : Nat} (hlead : IsLead lead) (htrail : IsTrail trail) :
    (Char.ofNat (0x10000 + (lead - 0xd800) * 0x400 + (trail - 0xdc00))).toNat =
      0x10000 + (lead - 0xd800) * 0x400 + (trail - 0xdc00) := by
  obtain ⟨-, hlead⟩ := hlead
  obtain ⟨-, htrail⟩ := htrail
  exact toNat_ofNat (.inr ⟨by omega, by omega⟩)

theorem charSpelled_ofUnit {ds : List Char} {u : Nat} (h : codeUnit? ds = some u)
    (hlead : ¬IsLead u) (htrail : ¬IsTrail u) : CharSpelled (.ofNat u) ('\\' :: 'u' :: ds) := by
  have hlt := codeUnit?_lt h
  rw [IsLead] at hlead
  rw [IsTrail] at htrail
  have hvalid : u.isValidChar := by
    rw [Nat.isValidChar]
    omega
  exact .unit (by rw [h, toNat_ofNat hvalid])

/-- Behind whole characters a body is a spelling of more, behind half of a pair it starts with the
other half; or else it makes no text. -/
structure Settles (cs rest : List Char) : Prop where
  whole : ∀ before, (∃ s, CharsSpelled s cs) ∨
    run (.plain (whole before)) (cs ++ '"' :: rest) = .text none :: run .ready rest
  waiting : ∀ before lead, IsLead lead → EndsPair cs ∨
    run (.plain (waiting before lead)) (cs ++ '"' :: rest) = .text none :: run .ready rest

theorem settles_nil : Settles [] rest where
  whole _ := .inl ⟨[], .nil⟩
  waiting _ _ _ := .inr (run_close _)

theorem Settles.char {cs front : List Char} {c : Char} (h : Settles cs rest) (hbody : IsBody cs)
    (hc : CharSpelled c front) (hrun : ∀ t rest,
      run (.plain t) (front ++ rest) = run (.plain (t.abandon.push c)) rest) :
    Settles (front ++ cs) rest where
  whole before := by
    rw [List.append_assoc, hrun]
    exact (h.whole (c :: before)).imp_left fun ⟨s, hs⟩ => ⟨c :: s, .cons hc hs⟩
  waiting before lead _ := by
    rw [List.append_assoc, hrun]
    exact .inr (run_faulty hbody rfl)

theorem Settles.unit {cs ds : List Char} {u : Nat} (h : Settles cs rest) (hbody : IsBody cs)
    (hu : codeUnit? ds = some u) : Settles ('\\' :: 'u' :: (ds ++ cs)) rest := by
  have hrun (t : Unfinished) : run (.plain t) ('\\' :: 'u' :: (ds ++ cs) ++ '"' :: rest) =
      run (.plain (t.unit u)) (cs ++ '"' :: rest) := by
    rw [List.cons_append, List.cons_append, List.append_assoc, run_codeUnit t hu]
  constructor <;> simp only [hrun]
  · intro before
    by_cases htrail : IsTrail u
    · have hunit : ((Scan.whole before).unit u).faulty = true := by
        simp only [Unfinished.unit, Scan.whole, if_pos (show _ ∧ _ from htrail)]
      exact .inr (run_faulty hbody hunit)
    · by_cases hlead : IsLead u
      · rw [unit_whole_of_isLead hlead]
        refine (h.waiting before u hlead).imp_left ?_
        rintro ⟨htrail', isTrail, hs⟩
        have hpair := CharsSpelled.cons
          (.pair hu htrail' hlead isTrail (toNat_ofPair hlead isTrail)) hs
        rw [List.append_assoc] at hpair
        exact ⟨_, hpair⟩
      · rw [unit_whole_of_not_isLead hlead htrail]
        exact (h.whole _).imp_left fun ⟨s, hs⟩ =>
          ⟨_, .cons (charSpelled_ofUnit hu hlead htrail) hs⟩
  · intro before lead hlead
    by_cases htrail : IsTrail u
    · rw [unit_waiting htrail]
      exact (h.whole _).imp_left fun ⟨s, hs⟩ => .trail hu htrail hs
    · have hunit : ((Scan.waiting before lead).unit u).faulty = true := by
        simp only [Unfinished.unit, Scan.waiting, if_neg (show ¬(_ ∧ _) from htrail)]
      exact .inr (run_faulty hbody hunit)

theorem settles_of_isBody {cs : List Char} (h : IsBody cs) : Settles cs rest := by
  induction h with
  | nil => exact settles_nil
  | plain not_control ne_quote ne_backslash tail ih =>
    exact ih.char tail (.plain not_control ne_quote ne_backslash)
      fun t _ => run_plain t not_control ne_quote ne_backslash
  | escape h tail ih => exact ih.char tail (.escape h) fun t _ => run_escape t h
  | unit h tail ih => exact ih.unit tail h

theorem run_halves {cs : List Char} (h : IsBody cs) (hcs : ∀ s, ¬CharsSpelled s cs) :
    run .ready ('"' :: (cs ++ '"' :: rest)) = .text none :: run .ready rest :=
  ((settles_of_isBody h).whole []).resolve_left fun ⟨s, hs⟩ => hcs s hs

end

end Scan

def Token.IsNumber : Token → Prop
  | .number _ => True
  | _ => False

def Separated (ts : List Token) : Prop := ts.IsChain fun t u => t.IsNumber → ¬u.IsNumber

section

variable {t : Token} {ts us : List Token}

theorem Separated.cons (ht : ¬t.IsNumber) (h : Separated ts) : Separated (t :: ts) :=
  List.isChain_cons.2 ⟨fun _ _ hnumber => absurd hnumber ht, h⟩

theorem Separated.append_cons (h : Separated ts) (ht : ¬t.IsNumber) (h' : Separated us) :
    Separated (ts ++ t :: us) := by
  refine List.isChain_append.2 ⟨h, h'.cons ht, fun u _ v hv _ => ?_⟩
  obtain rfl : t = v := by simpa using hv
  exact ht

end

namespace Scan

theorem run_token {t : Token} {cs rest : List Char} (h : t.Spelled cs)
    (hrest : t.IsNumber → Stops rest) : run .ready (cs ++ rest) = t :: run .ready rest := by
  cases h with
  | null => exact run_word_append ['u', 'l', 'l'] rest .null
  | @bool b =>
    cases b with
    | false => exact run_word_append ['a', 'l', 's', 'e'] rest (.bool false)
    | true => exact run_word_append ['r', 'u', 'e'] rest (.bool true)
  | number h => exact run_numeral h (hrest trivial)
  | text h =>
    rw [List.cons_append, List.append_assoc]
    exact run_text h
  | _ => rfl

theorem run_written_token {t : Token} {cs rest : List Char} (h : t.Written cs)
    (hrest : t.IsNumber → Stops rest) : run .ready (cs ++ rest) = t :: run .ready rest := by
  cases h with
  | spelled h => exact run_token h hrest
  | halves body not_spelled =>
    rw [List.cons_append, List.append_assoc]
    exact run_halves body not_spelled

theorem stops_token {t : Token} {cs rest : List Char} (h : t.Written cs) (ht : ¬t.IsNumber) :
    Stops (cs ++ rest) := by
  cases h with
  | spelled h =>
    cases h with
    | number => exact absurd trivial ht
    | @bool b => cases b <;> rintro c ⟨⟩ <;> decide
    | _ => rintro c ⟨⟩; decide
  | halves => rintro c ⟨⟩; decide

theorem stops_space {c : Char} (h : isSpace c = true) (cs : List Char) : Stops (c :: cs) := by
  rintro d ⟨⟩
  simp only [isSpace, Bool.or_eq_true, beq_iff_eq] at h
  rcases h with ((rfl | rfl) | rfl) | rfl <;> decide

theorem stops_of_written {ts : List Token} {cs : List Char} (h : Json.Written ts cs)
    (hfirst : ∀ t ∈ ts.head?, ¬t.IsNumber) : Stops cs := by
  have hnil : Stops [] := fun c hc => nomatch hc
  have hspaces {spaces rest : List Char} (h : IsSpaces spaces) (hrest : Stops rest) :
      Stops (spaces ++ rest) := by
    cases spaces with
    | nil => exact hrest
    | cons c spaces => exact stops_space (h c List.mem_cons_self) _
  cases h with
  | nil h => simpa using hspaces h hnil
  | cons h head _ => exact hspaces h (stops_token head (hfirst _ rfl))

/-- Scanning is blind to how the tokens are spelled and spaced. -/
theorem run_written {ts : List Token} {cs : List Char} (h : Json.Written ts cs)
    (hts : Separated ts) : run .ready cs = ts := by
  induction h with
  | @nil spaces h =>
    rw [← List.append_nil spaces, run_spaces h]
    rfl
  | cons h head tail ih =>
    obtain ⟨hnext, hts⟩ := List.isChain_cons.1 hts
    -- Only a number takes notice of what follows it.
    rw [run_spaces h, run_written_token head fun ht => stops_of_written tail fun u hu =>
      hnext u hu ht, ih hts]

end Scan

end TreeSelection.Json
