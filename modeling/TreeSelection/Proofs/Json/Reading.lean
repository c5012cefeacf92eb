import TreeSelection.Json.Decoder
import TreeSelection.Proofs.Json.Scanning

namespace TreeSelection.Json

mutual

def depth : Json → Nat
  | .array vs => depthOfItems vs + 1
  | .object ms => depthOfMembers ms + 1
  | .null | .bool _ | .number _ | .text _ => 0
termination_by structural v => v

def depthOfItems : List Json → Nat
  | [] => 0
  | v :: vs => max (depth v) (depthOfItems vs)
termination_by structural vs => vs

def depthOfMembers : List (String × Json) → Nat
  | [] => 0
  | m :: ms => max (depthOfMember m) (depthOfMembers ms)
termination_by structural ms => ms

def depthOfMember : String × Json → Nat
  | (_, v) => depth v
termination_by structural m => m

end

theorem depthOfMembers_le_iff {ms : List (String × Json)} {d : Nat} :
    depthOfMembers ms ≤ d ↔ ∀ m ∈ ms, depth m.2 ≤ d := by
  induction ms with
  | nil => simp [depthOfMembers]
  | cons m ms ih => rw [depthOfMembers, Nat.max_le, List.forall_mem_cons, ih, depthOfMember]

theorem depth_texts (l : List String) : depth (texts l) ≤ 1 := by
  have hitems : depthOfItems (l.map .text) = 0 := by
    induction l with
    | nil => rfl
    | cons s l ih =>
      rw [List.map_cons, depthOfItems, ih]
      rfl
  rw [texts, depth, hitems]

namespace Reading

mutual

/-- The tree of a text in which nothing is missing and nothing stands where it must not. Its numbers
can be out of range, and its texts can hold halves of pairs. -/
def IsWhole : Reading → Prop
  | .null | .bool _ | .number _ | .text _ => True
  | .array items ending => AreWhole items ∧ ending = .closed
  | .object members ending => MembersWhole members ∧ ending = .closed
  | .badText _ _ | .bad _ _ | .absent _ => False
termination_by structural r => r

def AreWhole : List Reading → Prop
  | [] => True
  | r :: rs => IsWhole r ∧ AreWhole rs
termination_by structural rs => rs

def MembersWhole : List (Reading × Reading) → Prop
  | [] => True
  | m :: ms => MemberWhole m ∧ MembersWhole ms
termination_by structural ms => ms

def MemberWhole : Reading × Reading → Prop
  | (key, r) => (∃ s, key = .text s) ∧ IsWhole r
termination_by structural m => m

end

theorem areWhole_iff {rs : List Reading} : AreWhole rs ↔ ∀ r ∈ rs, r.IsWhole := by
  induction rs with
  | nil => exact iff_of_true trivial (List.forall_mem_nil _)
  | cons r rs ih => rw [AreWhole, ih, List.forall_mem_cons]

theorem membersWhole_iff {ms : List (Reading × Reading)} :
    MembersWhole ms ↔ ∀ m ∈ ms, MemberWhole m := by
  induction ms with
  | nil => exact iff_of_true trivial (List.forall_mem_nil _)
  | cons m ms ih => rw [MembersWhole, ih, List.forall_mem_cons]

mutual

def tokens : Reading → List Token
  | .null => [.null]
  | .bool b => [.bool b]
  | .number n => [.number n]
  | .text s => [.text s]
  | .array items _ => .openArray :: (tokensOfItems items ++ [.closeArray])
  | .object members _ => .openObject :: (tokensOfMembers members ++ [.closeObject])
  | .badText kept passed => [.badText kept passed]
  | .bad kept passed => [.bad kept passed]
  | .absent _ => []
termination_by structural r => r

def tokensOfItems : List Reading → List Token
  | [] => []
  | [r] => tokens r
  | r :: rs => tokens r ++ .comma :: tokensOfItems rs
termination_by structural rs => rs

def tokensOfMembers : List (Reading × Reading) → List Token
  | [] => []
  | [m] => tokensOfMember m
  | m :: ms => tokensOfMember m ++ .comma :: tokensOfMembers ms
termination_by structural ms => ms

def tokensOfMember : Reading × Reading → List Token
  | (key, r) => tokens key ++ .colon :: tokens r
termination_by structural m => m

end

mutual

theorem separated_tokens : (r : Reading) → Separated r.tokens
  | .null | .bool _ | .number _ | .text _ | .badText _ _ | .bad _ _ => List.isChain_singleton _
  | .absent _ => .nil
  | .array rs _ => ((separated_tokensOfItems rs).append_cons id .nil).cons id
  | .object ms _ => ((separated_tokensOfMembers ms).append_cons id .nil).cons id

theorem separated_tokensOfItems : (rs : List Reading) → Separated (tokensOfItems rs)
  | [] => .nil
  | [r] => separated_tokens r
  | r :: s :: rs => (separated_tokens r).append_cons id (separated_tokensOfItems (s :: rs))

theorem separated_tokensOfMembers :
    (ms : List (Reading × Reading)) → Separated (tokensOfMembers ms)
  | [] => .nil
  | [m] => separated_tokensOfMember m
  | m :: n :: ms =>
    (separated_tokensOfMember m).append_cons id (separated_tokensOfMembers (n :: ms))

theorem separated_tokensOfMember : (m : Reading × Reading) → Separated (tokensOfMember m)
  | (key, r) => (separated_tokens key).append_cons id (separated_tokens r)

end

variable {outer : List Frame} {ts : List Token}

theorem run_step {t : Token} {place place' : Place} (h : step t place = .ok place') :
    run place (t :: ts) = run place' ts := by
  simp only [run, h]

theorem run_first_item {r : Reading} (h : r.IsWhole) (rs : List Reading) (outer : List Frame)
    (ts : List Token) :
    run (.firstItem outer) (tokensOfItems (r :: rs) ++ ts) =
      run (.value (.items [] :: outer)) (tokensOfItems (r :: rs) ++ ts) := by
  cases r with
  | badText => exact h.elim
  | bad => exact h.elim
  | absent => exact h.elim
  | _ => cases rs <;> rfl

mutual

theorem run_whole (r : Reading) (h : r.IsWhole) (outer : List Frame) (ts : List Token) :
    run (.value outer) (r.tokens ++ ts) = run (.done r outer) ts :=
  match r with
  | .null | .bool _ | .number _ | .text _ => rfl
  | .array [] _ => by
    obtain rfl := h.2
    rfl
  | .object [] _ => by
    obtain rfl := h.2
    rfl
  | .array (r :: rs) _ => by
    obtain ⟨hrs, rfl⟩ := h
    have hitems := run_items (r :: rs) hrs (List.cons_ne_nil r rs) [] outer ts
    have hopen := run_first_item hrs.1 rs outer (.closeArray :: ts)
    show run (.firstItem outer) ((tokensOfItems (r :: rs) ++ [.closeArray]) ++ ts) = _
    rw [List.append_assoc]
    exact hopen.trans hitems
  | .object (m :: ms) _ => by
    obtain ⟨hms, rfl⟩ := h
    have hmembers := run_members (m :: ms) hms (List.cons_ne_nil m ms) true [] outer ts
    show run (.key true [] outer) ((tokensOfMembers (m :: ms) ++ [.closeObject]) ++ ts) = _
    rw [List.append_assoc]
    exact hmembers
termination_by structural r

theorem run_items (rs : List Reading) (h : AreWhole rs) (hrs : rs ≠ []) (before : List Reading)
    (outer : List Frame) (ts : List Token) :
    run (.value (.items before :: outer)) (tokensOfItems rs ++ .closeArray :: ts) =
      run (.done (.array (before.reverse ++ rs) .closed) outer) ts :=
  match rs with
  | [] => absurd rfl hrs
  | [r] => by
    have hvalue := run_whole r h.1 (.items before :: outer) (.closeArray :: ts)
    show run _ (tokens r ++ _) = _
    rw [hvalue, run_step rfl, List.reverse_cons]
  | r :: s :: rs => by
    have hvalue := run_whole r h.1 (.items before :: outer)
      (.comma :: (tokensOfItems (s :: rs) ++ .closeArray :: ts))
    have hitems := run_items (s :: rs) h.2 (List.cons_ne_nil s rs) (r :: before) outer ts
    show run _ ((tokens r ++ .comma :: tokensOfItems (s :: rs)) ++ _) = _
    rw [List.append_assoc, List.cons_append, hvalue, run_step rfl, hitems, List.reverse_cons,
      List.append_assoc]
    rfl
termination_by structural rs

theorem run_members (ms : List (Reading × Reading)) (h : MembersWhole ms) (hms : ms ≠ [])
    (first : Bool) (before : List (Reading × Reading)) (outer : List Frame) (ts : List Token) :
    run (.key first before outer) (tokensOfMembers ms ++ .closeObject :: ts) =
      run (.done (.object (before.reverse ++ ms) .closed) outer) ts :=
  match ms with
  | [] => absurd rfl hms
  | [m] => by
    have hmember := run_member m h.1 first before outer (.closeObject :: ts)
    show run _ (tokensOfMember m ++ _) = _
    rw [hmember, run_step rfl, List.reverse_cons]
  | m :: n :: ms => by
    have hmember := run_member m h.1 first before outer
      (.comma :: (tokensOfMembers (n :: ms) ++ .closeObject :: ts))
    have hmembers := run_members (n :: ms) h.2 (List.cons_ne_nil n ms) false (m :: before) outer ts
    show run _ ((tokensOfMember m ++ .comma :: tokensOfMembers (n :: ms)) ++ _) = _
    rw [List.append_assoc, List.cons_append, hmember, run_step rfl, hmembers, List.reverse_cons,
      List.append_assoc]
    rfl
termination_by structural ms

theorem run_member (m : Reading × Reading) (h : MemberWhole m) (first : Bool)
    (before : List (Reading × Reading)) (outer : List Frame) (ts : List Token) :
    run (.key first before outer) (tokensOfMember m ++ ts) =
      run (.done m.2 (.members before m.1 :: outer)) ts :=
  match m with
  | (key, r) => by
    obtain ⟨⟨s, rfl⟩, hr⟩ := h
    exact run_whole r hr _ ts
termination_by structural m

end

theorem ofText_of_written {r : Reading} {s : String} (h : r.IsWhole)
    (hs : Written r.tokens s.toList) : Reading.ofText s = (r, false) := by
  have htokens : Json.tokens s = r.tokens ++ [] := by
    rw [Json.tokens, Scan.run_written hs r.separated_tokens, List.append_nil]
  rw [Reading.ofText, htokens, run_whole r h]
  rfl

mutual

theorem IsWhole.pass : {r : Reading} → r.IsWhole → r.pass = .ok ()
  | .null, _ | .bool _, _ | .number _, _ | .text _, _ => rfl
  | .array rs _, ⟨hrs, hclosed⟩ => by
    subst hclosed
    simp only [Reading.pass, passItems_of_whole hrs]
    rfl
  | .object ms _, ⟨hms, hclosed⟩ => by
    subst hclosed
    simp only [Reading.pass, passMembers_of_whole hms]
    rfl

theorem passItems_of_whole : {rs : List Reading} → AreWhole rs → passItems rs = .ok ()
  | [], _ => rfl
  | r :: rs, ⟨hr, hrs⟩ => by
    simp only [passItems, hr.pass, passItems_of_whole hrs]
    rfl

theorem passMembers_of_whole :
    {ms : List (Reading × Reading)} → MembersWhole ms → passMembers ms = .ok ()
  | [], _ => rfl
  | m :: ms, ⟨hm, hms⟩ => by
    simp only [passMembers, passMember_of_whole hm, passMembers_of_whole hms]
    rfl

theorem passMember_of_whole : {m : Reading × Reading} → MemberWhole m → passMember m = .ok ()
  | (_, r), ⟨⟨_, hkey⟩, hr⟩ => by
    subst hkey
    exact hr.pass

end

mutual

theorem isWhole_ofJson : (v : Json) → (ofJson v).IsWhole
  | .null | .bool _ | .number _ | .text _ => trivial
  | .array vs => ⟨areWhole_ofItems vs, rfl⟩
  | .object ms => ⟨membersWhole_ofMembers ms, rfl⟩

theorem areWhole_ofItems : (vs : List Json) → AreWhole (ofItems vs)
  | [] => trivial
  | v :: vs => ⟨isWhole_ofJson v, areWhole_ofItems vs⟩

theorem membersWhole_ofMembers : (ms : List (String × Json)) → MembersWhole (ofMembers ms)
  | [] => trivial
  | m :: ms => ⟨memberWhole_ofMember m, membersWhole_ofMembers ms⟩

theorem memberWhole_ofMember : (m : String × Json) → MemberWhole (ofMember m)
  | (_, v) => ⟨⟨_, rfl⟩, isWhole_ofJson v⟩

end

mutual

theorem tokens_ofJson : (v : Json) → (ofJson v).tokens = tokensOf v
  | .null | .bool _ | .number _ | .text _ => rfl
  | .array vs => by rw [ofJson, tokens, tokensOfItems_ofItems vs, tokensOf]
  | .object ms => by rw [ofJson, tokens, tokensOfMembers_ofMembers ms, tokensOf]

theorem tokensOfItems_ofItems :
    (vs : List Json) → tokensOfItems (ofItems vs) = Json.tokensOfItems vs
  | [] => rfl
  | [v] => tokens_ofJson v
  | v :: w :: vs => congrArg₂ (· ++ Token.comma :: ·) (tokens_ofJson v)
    (tokensOfItems_ofItems (w :: vs))

theorem tokensOfMembers_ofMembers :
    (ms : List (String × Json)) → tokensOfMembers (ofMembers ms) = Json.tokensOfMembers ms
  | [] => rfl
  | [m] => tokensOfMember_ofMember m
  | m :: n :: ms => congrArg₂ (· ++ Token.comma :: ·) (tokensOfMember_ofMember m)
    (tokensOfMembers_ofMembers (n :: ms))

theorem tokensOfMember_ofMember :
    (m : String × Json) → tokensOfMember (ofMember m) = Json.tokensOfMember m
  | (name, v) => congrArg (Token.text (some name) :: Token.colon :: ·) (tokens_ofJson v)

end

mutual

theorem keep_ofJson : (v : Json) → {d : Nat} → depth v ≤ d → (ofJson v).keep d = .ok v
  | .null, _, _ | .bool _, _, _ | .number _, _, _ | .text _, _, _ => rfl
  | .array vs, d + 1, h => by
    have hitems := keepItems_ofItems vs (Nat.le_of_succ_le_succ h)
    simp only [ofJson, keep, hitems]
    rfl
  | .object ms, d + 1, h => by
    have hmembers := keepMembers_ofMembers ms (Nat.le_of_succ_le_succ h)
    simp only [ofJson, keep, hmembers]
    rfl

theorem keepItems_ofItems :
    (vs : List Json) → {d : Nat} → depthOfItems vs ≤ d → keepItems (ofItems vs) d = .ok vs
  | [], _, _ => rfl
  | v :: vs, d, h => by
    have hdepth := Nat.max_le.1 h
    simp only [ofItems, keepItems, keep_ofJson v hdepth.1, keepItems_ofItems vs hdepth.2]
    rfl

theorem keepMembers_ofMembers :
    (ms : List (String × Json)) → {d : Nat} → depthOfMembers ms ≤ d →
      keepMembers (ofMembers ms) d = .ok ms
  | [], _, _ => rfl
  | m :: ms, d, h => by
    have hdepth := Nat.max_le.1 h
    simp only [ofMembers, keepMembers, keepMember_ofMember m hdepth.1,
      keepMembers_ofMembers ms hdepth.2]
    rfl

theorem keepMember_ofMember :
    (m : String × Json) → {d : Nat} → depthOfMember m ≤ d → keepMember (ofMember m) d = .ok m
  | (_, v), d, h => by
    simp only [ofMember, keepMember, keep_ofJson v h]
    rfl

end

end Reading

theorem Decoder.list_texts (l : List String) (depth : Nat) :
    Decoder.list .text (depth + 1) (.ofJson (.texts l)) = .ok l := by
  have hitems : Decoder.items (Decoder.text depth) (Reading.ofItems (l.map .text)) = .ok l := by
    induction l with
    | nil => rfl
    | cons s l ih =>
      simp only [List.map_cons, Reading.ofItems, Decoder.items, ih]
      rfl
  simp only [texts, Reading.ofJson, Decoder.list, hitems]
  rfl

theorem Decoder.ofText_of_written {r : Reading} {s : String} (d : Decoder α) (h : r.IsWhole)
    (hs : Written r.tokens s.toList) : d.ofText s = d maxDepth r := by
  simp only [Decoder.ofText, Reading.ofText_of_written h hs]
  cases d maxDepth r <;> rfl

theorem Decoder.ofText_of_isText {v : Json} {s : String} (d : Decoder α) (h : IsText v s) :
    d.ofText s = d.ofJson v :=
  d.ofText_of_written (Reading.isWhole_ofJson v)
    (Reading.tokens_ofJson v ▸ Spelled.written h)

end TreeSelection.Json
