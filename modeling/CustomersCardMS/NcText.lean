import CustomersCardMS.NcCheck

namespace CustomersCard
open TextSearch

/-- The string at `data`: the bytes before the first NUL. -/
def ncString (u : List Byte) : List Byte := upTo isNul u

/-- The header length and the text of the length that a string announces: up to the first
blank line, and from the first "Content-Length: " in any case to the end of its line. -/
def announced (s : List Byte) : Option (ℕ × List Byte) :=
  match find (fun a b => a == b) headerEnd s, find sameLetter contentLength s with
  | some p, some q =>
    (find (fun a b => a == b) crlf (s.drop q)).map fun n =>
      (p+4, (s.drop (q+16)).take (n-16))
  | _, _ => none

/-- `_tstoi` of a text in `Length`. -/
def lengthValue (text : List Byte) : Option ℤ :=
  if text.length ≤ LENGTH_SIZE then atoi (text ++ List.replicate (LENGTH_SIZE-text.length) 0)
  else none

theorem headerEnd_nul : ∀ a ∈ headerEnd, ∀ b, isNul b = true → (a == b) = false := by
  intro a ha b hb
  rw [eq_of_beq hb]
  revert a
  decide

theorem crlf_nul : ∀ a ∈ crlf, ∀ b, isNul b = true → (a == b) = false := by
  intro a ha b hb
  rw [eq_of_beq hb]
  revert a
  decide

theorem contentLength_nul : ∀ a ∈ contentLength, ∀ b, isNul b = true → sameLetter a b = false := by
  intro a ha b hb
  rw [eq_of_beq hb]
  revert a
  decide +kernel

theorem any_isNul {u : List Byte} : u.any isNul = true ↔ 0 ∈ u := by
  rw [List.any_eq_true]
  constructor
  · rintro ⟨b, hb, hz⟩
    rwa [← eq_of_beq hz]
  · intro hz
    exact ⟨0, hz, rfl⟩

/-- A line break is not part of "Content-Length: ". -/
theorem crlf_after {u : List Byte} {n : ℕ} (hu : beginsWith sameLetter contentLength u = true)
    (hn : find (fun a b => a == b) crlf u = some n) : 16 ≤ n := by
  obtain ⟨_, hb, _⟩ := find_eq_some.mp hn
  have hbound := find_bound hn
  change n+2 ≤ u.length at hbound
  by_contra hlt
  have hbreak := beginsWith_get hb 0 (by decide) (by rw [List.length_drop]; omega)
  rw [List.getElem_drop] at hbreak
  have hletter := beginsWith_get hu n (Nat.not_le.mp hlt) (by omega)
  have hcr : u[n] = 0x0d := (eq_of_beq hbreak).symm
  rw [hcr] at hletter
  have hnone : ∀ a ∈ contentLength, sameLetter a 0x0d = false := by decide +kernel
  rw [hnone _ (List.getElem_mem _)] at hletter
  contradiction

theorem memcpyLength_take (u : List Byte) (n : ℕ) :
    memcpyLength u n = memcpyLength (u.take n) n := by
  unfold memcpyLength
  rw [Int.toNat_natCast, List.take_take, Nat.min_self]

/-- Each search on the text of the buffer is one on its string. -/
theorem strstr_eq {u pat : List Byte} (hp : pat ≠ [])
    (h : ∀ a ∈ pat, ∀ b, isNul b = true → (a == b) = false) :
    strstr u pat = match find (fun a b => a == b) pat (ncString u) with
      | some i => some (some i)
      | none => if u.any isNul then some none else none := scan_eq hp h

theorem strStrI_eq {u pat : List Byte} (hp : pat ≠ [])
    (h : ∀ a ∈ pat, ∀ b, isNul b = true → sameLetter a b = false) :
    strStrI u pat = match find sameLetter pat (ncString u) with
      | some i => some (some i)
      | none => if u.any isNul then some none else none := scan_eq hp h

theorem strstr_found {u pat : List Byte} {i : ℕ} (hp : pat ≠ [])
    (h : ∀ a ∈ pat, ∀ b, isNul b = true → (a == b) = false) :
    strstr u pat = some (some i) ↔ find (fun a b => a == b) pat (ncString u) = some i :=
  scan_found hp h

theorem strStrI_found {u pat : List Byte} {i : ℕ} (hp : pat ≠ [])
    (h : ∀ a ∈ pat, ∀ b, isNul b = true → sameLetter a b = false) :
    strStrI u pat = some (some i) ↔ find sameLetter pat (ncString u) = some i :=
  scan_found hp h

/-- The three places that make an announcement. -/
structure Found (s : List Byte) (p q n : ℕ) : Prop where
  header : find (fun a b => a == b) headerEnd s = some p
  length : find sameLetter contentLength s = some q
  line : find (fun a b => a == b) crlf (s.drop q) = some n

/-- The text of the length. -/
def lineText (s : List Byte) (q n : ℕ) : List Byte := (s.drop (q+16)).take (n-16)

theorem announced_iff {s text : List Byte} {h : ℕ} : announced s = some (h, text) ↔
    ∃ p q n, Found s p q n ∧ h = p+4 ∧ text = lineText s q n := by
  unfold announced
  constructor
  · intro ha
    split at ha
    · case h_1 p q hp hq =>
      rcases Option.map_eq_some_iff.mp ha with ⟨n, hn, heq⟩
      rw [Prod.mk.injEq] at heq
      exact ⟨p, q, n, ⟨hp, hq, hn⟩, heq.1.symm, heq.2.symm⟩
    · contradiction
  · rintro ⟨p, q, n, hf, rfl, rfl⟩
    rw [hf.header, hf.length]
    dsimp only
    rw [hf.line]
    rfl

theorem Found.bound {s : List Byte} {p q n : ℕ} (h : Found s p q n) :
    16 ≤ n ∧ q+n+2 ≤ s.length ∧ (lineText s q n).length = n-16 := by
  obtain ⟨hle, hbegins, _⟩ := find_eq_some.mp h.length
  have hbound := find_bound h.line
  change n+2 ≤ _ at hbound
  rw [List.length_drop] at hbound
  refine ⟨crlf_after hbegins h.line, by omega, ?_⟩
  unfold lineText
  rw [List.length_take, List.length_drop]
  omega

/-- The copy takes the text out of the string. -/
theorem Found.copied {u : List Byte} {p q n : ℕ} (h : Found (ncString u) p q n) :
    memcpyLength (u.drop (q+16)) ((n : ℤ)-16) =
      memcpyLength (lineText (ncString u) q n) (lineText (ncString u) q n).length := by
  obtain ⟨hn, hbound, hlen⟩ := h.bound
  obtain ⟨w, hw⟩ : ncString u <+: u := upTo_prefix
  have htake : (u.drop (q+16)).take (n-16) = lineText (ncString u) q n := by
    conv_lhs => rw [← hw]
    rw [List.drop_append_of_le_length (by omega), List.take_append_of_le_length (by
      rw [List.length_drop]
      omega)]
    rfl
  have hcast : (n : ℤ)-16 = ((n-16 : ℕ) : ℤ) := by omega
  rw [hlen, hcast, memcpyLength_take, htake]

theorem announced_append {u v text : List Byte} {h : ℕ} (ha : announced u = some (h, text)) :
    announced (u ++ v) = some (h, text) := by
  obtain ⟨p, q, n, hf, rfl, rfl⟩ := announced_iff.mp ha
  obtain ⟨hn, hbound, hlen⟩ := hf.bound
  have hdrop : (u ++ v).drop q = u.drop q ++ v := List.drop_append_of_le_length (by omega)
  apply announced_iff.mpr
  refine ⟨p, q, n, ⟨find_append hf.header, find_append hf.length, ?_⟩, rfl, ?_⟩
  · rw [hdrop]
    exact find_append hf.line
  · unfold lineText
    rw [List.drop_append_of_le_length (by omega), List.take_append_of_le_length (by
      rw [List.length_drop]
      omega)]

theorem ncString_append {u v : List Byte} (h : 0 ∉ u) : ncString (u ++ v) = u ++ ncString v := by
  apply List.takeWhile_append_of_pos
  intro b hb
  rw [Bool.not_eq_true']
  apply Bool.eq_false_iff.mpr
  intro hz
  rw [eq_of_beq hz] at hb
  exact h hb

/-- What comes behind a NUL does not matter. -/
theorem ncString_of_mem {u v : List Byte} (h : 0 ∈ u) : ncString (u ++ v) = ncString u := by
  induction u with
  | nil => contradiction
  | cons b bs ih =>
    unfold ncString upTo at ih ⊢
    rw [List.cons_append, List.takeWhile_cons, List.takeWhile_cons]
    rcases hb : isNul b with _ | _
    · rcases List.mem_cons.mp h with rfl | hbs
      · contradiction
      · rw [Bool.not_false, if_pos rfl, if_pos rfl, ih hbs]
    · rfl

/-- What comes behind a NUL, or behind a whole announcement, does not matter. -/
theorem announced_prefix {u v : List Byte} (h : 0 ∈ u ∨ announced (ncString u) ≠ none) :
    announced (ncString (u ++ v)) = announced (ncString u) := by
  by_cases hz : 0 ∈ u
  · rw [ncString_of_mem hz]
  · have hself : ncString u = u := by
      have happend := ncString_append (v := []) hz
      have hnil : ncString [] = [] := rfl
      rwa [hnil, List.append_nil] at happend
    rw [ncString_append hz, hself]
    rw [hself] at h
    obtain ⟨⟨n, text⟩, ha⟩ := Option.ne_none_iff_exists'.mp (h.resolve_left hz)
    rw [announced_append ha, ha]

namespace BufferObj

variable (b : BufferObj)

theorem dataBlock_drop (off : ℕ) : b.dataBlock off = (b.dataBlock 0).drop off := by
  unfold dataBlock
  rw [← List.map_drop, List.drop_range', Nat.mul_one, Nat.zero_add, Nat.sub_zero]

theorem length_dataBlock : (b.dataBlock 0).length = b.dataRoom := by
  unfold dataBlock
  rw [List.length_map, List.length_range', Nat.sub_zero]

/-- CheckNCData decides by what the string at `data` announces. -/
theorem ncDecision_eq : b.ncDecision = (announced (ncString (b.dataBlock 0))).elim
    (if (b.dataBlock 0).any isNul then .ok .wait else .error .overrun)
    (fun found => b.compareLength found.1 found.2 found.2.length) := by
  unfold ncDecision announced
  rw [strstr_eq (by decide) headerEnd_nul, strStrI_eq (by decide) contentLength_nul]
  cases hp : find (fun a b => a == b) headerEnd (ncString (b.dataBlock 0)) with
  | none =>
    cases (b.dataBlock 0).any isNul with
    | true => rfl
    | false => rfl
  | some p =>
    cases hq : find sameLetter contentLength (ncString (b.dataBlock 0)) with
    | none =>
      cases (b.dataBlock 0).any isNul with
      | true => rfl
      | false => rfl
    | some q =>
      have hle := (find_eq_some.mp hq).1
      obtain ⟨hstring, hany⟩ := upTo_drop hle
      have hdrop : ncString ((b.dataBlock 0).drop q) = (ncString (b.dataBlock 0)).drop q := hstring
      dsimp only
      rw [b.dataBlock_drop q, strstr_eq (by decide) crlf_nul, hany, hdrop]
      cases hn : find (fun a b => a == b) crlf ((ncString (b.dataBlock 0)).drop q) with
      | none =>
        cases (b.dataBlock 0).any isNul with
        | true => rfl
        | false => rfl
      | some n =>
        have hfound : Found (ncString (b.dataBlock 0)) p q n := ⟨hp, hq, hn⟩
        dsimp only [Option.map_some]
        unfold compareLength
        rw [b.dataBlock_drop, hfound.copied]
        rfl

theorem ncDecision_some {headerLen : ℕ} {text : List Byte}
    (h : announced (ncString (b.dataBlock 0)) = some (headerLen, text)) :
    b.ncDecision = b.compareLength headerLen text text.length := by
  rw [ncDecision_eq, h, Option.elim_some]

theorem ncDecision_none (h : announced (ncString (b.dataBlock 0)) = none) :
    b.ncDecision = if (b.dataBlock 0).any isNul then .ok .wait else .error .overrun := by
  rw [ncDecision_eq, h, Option.elim_none]

end BufferObj

end CustomersCard
