import CustomersCardMS.NcText

namespace CustomersCard
open TextSearch

theorem atoiDigits_terminated {u : List Byte} (h : 0 ∈ u) (n : ℕ) :
    ∃ m, atoiDigits n u = some m := by
  induction u generalizing n with
  | nil => contradiction
  | cons b bs ih =>
    rw [atoiDigits]
    split
    · case isTrue hb =>
      rcases List.mem_cons.mp h with rfl | hbs
      · contradiction
      · exact ih hbs _
    · exact ⟨n, rfl⟩

/-- `_tstoi` stays in a string that is terminated. -/
theorem atoi_terminated {u : List Byte} (h : 0 ∈ u) : ∃ v, atoi u = some v := by
  induction u with
  | nil => contradiction
  | cons b bs ih =>
    have htail (hb : b ≠ 0) : 0 ∈ bs := by
      rcases List.mem_cons.mp h with heq | hbs
      · exact absurd heq.symm hb
      · exact hbs
    rw [atoi]
    split
    · case isTrue hb =>
      apply ih
      apply htail
      rintro rfl
      contradiction
    split
    · case isTrue hb =>
      obtain ⟨m, hm⟩ := atoiDigits_terminated (htail (by rw [hb]; decide)) 0
      rw [hm]
      exact ⟨_, rfl⟩
    split
    · case isTrue hb =>
      obtain ⟨m, hm⟩ := atoiDigits_terminated (htail (by rw [hb]; decide)) 0
      rw [hm]
      exact ⟨_, rfl⟩
    · obtain ⟨m, hm⟩ := atoiDigits_terminated h 0
      rw [hm]
      exact ⟨_, rfl⟩

theorem lengthValue_short {text : List Byte} (h : text.length < LENGTH_SIZE) :
    ∃ v, lengthValue text = some v := by
  unfold lengthValue
  rw [if_pos (Nat.le_of_lt h)]
  apply atoi_terminated
  apply List.mem_append_right
  rw [List.mem_replicate]
  exact ⟨by omega, rfl⟩

namespace BufferObj

variable (b : BufferObj)

theorem memcpyLength_text (text : List Byte) : memcpyLength text text.length =
    if text.length ≤ LENGTH_SIZE then some (text ++ List.replicate (LENGTH_SIZE-text.length) 0)
    else none := by
  unfold memcpyLength
  rw [Int.toNat_natCast, List.take_length]
  congr 1
  apply propext
  constructor
  · intro h
    exact_mod_cast h.2
  · intro h
    exact ⟨Int.natCast_nonneg _, by exact_mod_cast h⟩

/-- What CheckNCData does with a length that is announced. -/
theorem compareLength_value {headerLen : ℕ} {text : List Byte} {v : ℤ}
    (hv : lengthValue text = some v) : b.compareLength headerLen text text.length =
      if headerLen + v > b.dwRecvedCount.toInt then .ok .wait
      else if headerLen + v = b.dwRecvedCount.toInt then .ok (.complete headerLen)
      else .ok .close := by
  unfold lengthValue at hv
  split at hv
  · case isTrue hle =>
    unfold compareLength
    rw [memcpyLength_text, if_pos hle]
    dsimp only
    rw [hv]
  · contradiction

/-- `data[off..datalen)` -/
def text (off : ℕ) : List Byte := (List.range' off (b.datalen.toNat-off)).map b.data

theorem text_drop (off : ℕ) : b.text off = (b.text 0).drop off := by
  unfold text
  rw [← List.map_drop, List.drop_range', Nat.mul_one, Nat.zero_add, Nat.sub_zero]

/-- The block goes on where `data` ends. -/
theorem text_prefix : b.text 0 <+: b.dataBlock 0 := by
  refine ⟨(List.range' b.datalen.toNat 3).map b.data, ?_⟩
  unfold text dataBlock dataRoom
  rw [Nat.sub_zero, Nat.sub_zero, ← List.map_append]
  congr 1
  have happend : List.range' 0 b.datalen.toNat ++ List.range' (0+b.datalen.toNat) 3 =
      List.range' 0 (b.datalen.toNat+3) := List.range'_append_1
  rwa [Nat.zero_add] at happend

/-- It reads and copies within its arrays, and a header length that it returns lies within what
was received. -/
structure NcSafe : Prop where
  headerSearch : strstr (b.text 0) headerEnd ≠ none
  lengthSearch : ∀ p, strstr (b.text 0) headerEnd = some (some p) →
    strStrI (b.text 0) contentLength ≠ none
  lineSearch : ∀ p q, strstr (b.text 0) headerEnd = some (some p) →
    strStrI (b.text 0) contentLength = some (some q) → strstr (b.text q) crlf ≠ none
  -- `Length` keeps its terminator, and holds a number that is not negative.
  copy : ∀ p q n, strstr (b.text 0) headerEnd = some (some p) →
    strStrI (b.text 0) contentLength = some (some q) → strstr (b.text q) crlf = some (some n) →
      0 ≤ (n : ℤ)-16 ∧ (n : ℤ)-16 ≤ LENGTH_SIZE-1 ∧
        ∃ length v, memcpyLength (b.text (q+16)) ((n : ℤ)-16) = some length ∧ 0 ∈ length ∧
          atoi length = some v ∧ 0 ≤ v
  result : ∀ h b' closed, b.checkNCData = .ok (h, b', closed) → h ≠ 0 →
    4 ≤ h ∧ h ≤ b.dwRecvedCount.toNat

/-- The buffer has an end, or a whole announcement before it, and a length that it announces is
short and not negative. -/
def safeText (u : List Byte) : Prop :=
  (0 ∈ u ∨ announced (ncString u) ≠ none) ∧
    ∀ h text, announced (ncString u) = some (h, text) →
      text.length < LENGTH_SIZE ∧ ∀ v, lengthValue text = some v → 0 ≤ v

variable {b}

/-- The three searches on the buffer find the three places in its string. -/
theorem searches_found {p q n : ℕ} : (strstr (b.text 0) headerEnd = some (some p) ∧
    strStrI (b.text 0) contentLength = some (some q) ∧ strstr (b.text q) crlf = some (some n)) ↔
      Found (ncString (b.text 0)) p q n := by
  rw [strstr_found (by decide) headerEnd_nul, strStrI_found (by decide) contentLength_nul,
    strstr_found (by decide) crlf_nul, b.text_drop q]
  have hdrop (hq : find sameLetter contentLength (ncString (b.text 0)) = some q) :
      ncString ((b.text 0).drop q) = (ncString (b.text 0)).drop q :=
    (upTo_drop (find_eq_some.mp hq).1).1
  constructor
  · rintro ⟨hp, hq, hn⟩
    rw [hdrop hq] at hn
    exact ⟨hp, hq, hn⟩
  · intro h
    refine ⟨h.header, h.length, ?_⟩
    rw [hdrop h.length]
    exact h.line

/-- A search that does not run off the buffer finds something or comes to its end. -/
theorem strstr_ends {u pat : List Byte} (hp : pat ≠ [])
    (h : ∀ a ∈ pat, ∀ b, isNul b = true → (a == b) = false) :
    strstr u pat ≠ none ↔ 0 ∈ u ∨ find (fun a b => a == b) pat (ncString u) ≠ none := by
  rw [← any_isNul]
  exact scan_ends hp h

theorem strStrI_ends {u pat : List Byte} (hp : pat ≠ [])
    (h : ∀ a ∈ pat, ∀ b, isNul b = true → sameLetter a b = false) :
    strStrI u pat ≠ none ↔ 0 ∈ u ∨ find sameLetter pat (ncString u) ≠ none := by
  rw [← any_isNul]
  exact scan_ends hp h

theorem NcSafe.ends (h : b.NcSafe) : 0 ∈ b.text 0 ∨ announced (ncString (b.text 0)) ≠ none := by
  rcases (strstr_ends (by decide) headerEnd_nul).mp h.headerSearch with hz | hp
  · exact Or.inl hz
  obtain ⟨p, hp⟩ := Option.ne_none_iff_exists'.mp hp
  have hheader := (strstr_found (by decide) headerEnd_nul).mpr hp
  rcases (strStrI_ends (by decide) contentLength_nul).mp (h.lengthSearch p hheader) with hz | hq
  · exact Or.inl hz
  obtain ⟨q, hq⟩ := Option.ne_none_iff_exists'.mp hq
  have hlength := (strStrI_found (by decide) contentLength_nul).mpr hq
  rcases (strstr_ends (by decide) crlf_nul).mp (h.lineSearch p q hheader hlength) with hz | hn
  · left
    rw [b.text_drop] at hz
    exact List.mem_of_mem_drop hz
  · right
    obtain ⟨n, hn⟩ := Option.ne_none_iff_exists'.mp hn
    have hline := (strstr_found (by decide) crlf_nul).mpr hn
    have hfound := searches_found.mp ⟨hheader, hlength, hline⟩
    have hsome := announced_iff.mpr ⟨p, q, n, hfound, rfl, rfl⟩
    rw [hsome]
    simp

/-- The copy that goes with an announcement. -/
theorem copies_iff {p q n : ℕ} (hf : Found (ncString (b.text 0)) p q n) :
    (0 ≤ (n : ℤ)-16 ∧ (n : ℤ)-16 ≤ LENGTH_SIZE-1 ∧
      ∃ length v, memcpyLength (b.text (q+16)) ((n : ℤ)-16) = some length ∧ 0 ∈ length ∧
        atoi length = some v ∧ 0 ≤ v) ↔
      (lineText (ncString (b.text 0)) q n).length < LENGTH_SIZE ∧
        ∀ v, lengthValue (lineText (ncString (b.text 0)) q n) = some v → 0 ≤ v := by
  obtain ⟨hn, _, hlen⟩ := hf.bound
  rw [b.text_drop, hf.copied, memcpyLength_text]
  generalize lineText (ncString (b.text 0)) q n = text at hlen
  have hsize : LENGTH_SIZE = 8 := rfl
  constructor
  · rintro ⟨_, hle, length, v, hcopy, _, hatoi, hv⟩
    have hshort : text.length < LENGTH_SIZE := by omega
    refine ⟨hshort, ?_⟩
    intro v' hv'
    rw [if_pos (Nat.le_of_lt hshort), Option.some.injEq] at hcopy
    unfold lengthValue at hv'
    rw [if_pos (Nat.le_of_lt hshort), hcopy, hatoi, Option.some.injEq] at hv'
    rwa [← hv']
  · rintro ⟨hshort, hpos⟩
    obtain ⟨v, hv⟩ := lengthValue_short hshort
    have hv' := hv
    unfold lengthValue at hv'
    rw [if_pos (Nat.le_of_lt hshort)] at hv' ⊢
    refine ⟨by omega, by omega, _, v, rfl, ?_, hv', hpos v hv⟩
    apply List.mem_append_right
    rw [List.mem_replicate]
    exact ⟨by omega, rfl⟩

/-- A header length that is returned lies within what was received. -/
theorem safeText_result (h : safeText (b.text 0)) {headerLen : ℕ}
    (hd : b.ncDecision = .ok (.complete headerLen)) :
    4 ≤ headerLen ∧ headerLen ≤ b.dwRecvedCount.toNat := by
  obtain ⟨rest, hrest⟩ := b.text_prefix
  -- What lies behind `data` decides only where a search gets there.
  have hblock : announced (ncString (b.dataBlock 0)) = announced (ncString (b.text 0)) := by
    rw [← hrest]
    exact announced_prefix h.1
  cases ha : announced (ncString (b.text 0)) with
  | some found =>
    obtain ⟨headerLen', text⟩ := found
    rw [b.ncDecision_some (hblock.trans ha)] at hd
    obtain ⟨hshort, hpos⟩ := h.2 headerLen' text ha
    obtain ⟨v, hv⟩ := lengthValue_short hshort
    have hnonneg := hpos v hv
    rw [b.compareLength_value hv] at hd
    split at hd
    · cases hd
    split at hd
    · case isTrue heq =>
      rw [Except.ok.injEq, NcDecision.complete.injEq] at hd
      obtain ⟨p, q, n, _, rfl, _⟩ := announced_iff.mp ha
      have hint : b.dwRecvedCount.toInt ≤ b.dwRecvedCount.toNat := by
        rw [BitVec.toInt_eq_toNat_cond]
        split <;> omega
      omega
    · cases hd
  | none =>
    rw [b.ncDecision_none (hblock.trans ha)] at hd
    split at hd
    · cases hd
    · cases hd

/-- CheckNCData is safe on a buffer if and only if the buffer holds a NUL or announces a length
before its end, and an announced length has at most seven characters and no minus sign that
makes it negative. -/
theorem check_safe_iff (b : BufferObj) : b.NcSafe ↔ safeText (b.text 0) := by
  constructor
  · intro h
    refine ⟨h.ends, ?_⟩
    intro headerLen text ha
    obtain ⟨p, q, n, hf, _, rfl⟩ := announced_iff.mp ha
    obtain ⟨hp, hq, hn⟩ := searches_found.mpr hf
    exact (copies_iff hf).mp (h.copy p q n hp hq hn)
  · intro h
    -- Without a NUL it is the announcement that ends the searches.
    have hends (hz : 0 ∉ b.text 0) : ∃ p q n, Found (ncString (b.text 0)) p q n := by
      obtain ⟨⟨headerLen, text⟩, ha⟩ := Option.ne_none_iff_exists'.mp (h.1.resolve_left hz)
      obtain ⟨p, q, n, hf, _⟩ := announced_iff.mp ha
      exact ⟨p, q, n, hf⟩
    constructor
    · apply (strstr_ends (by decide) headerEnd_nul).mpr
      by_cases hz : 0 ∈ b.text 0
      · exact Or.inl hz
      · obtain ⟨p, q, n, hf⟩ := hends hz
        right
        rw [hf.header]
        simp
    · intro p _
      apply (strStrI_ends (by decide) contentLength_nul).mpr
      by_cases hz : 0 ∈ b.text 0
      · exact Or.inl hz
      · obtain ⟨p, q, n, hf⟩ := hends hz
        right
        rw [hf.length]
        simp
    · intro p q hp hq
      by_cases hz : 0 ∈ b.text 0
      · have hq' := (strStrI_found (by decide) contentLength_nul).mp hq
        apply (strstr_ends (by decide) crlf_nul).mpr
        left
        rw [← any_isNul, b.text_drop, (upTo_drop (find_eq_some.mp hq').1).2]
        exact any_isNul.mpr hz
      · obtain ⟨p', q', n, hf⟩ := hends hz
        obtain ⟨_, hq', hn⟩ := searches_found.mpr hf
        rw [hq, Option.some.injEq, Option.some.injEq] at hq'
        rw [hq', hn]
        simp
    · intro p q n hp hq hn
      have hf := searches_found.mp ⟨hp, hq, hn⟩
      exact (copies_iff hf).mpr (h.2 _ _ (announced_iff.mpr ⟨p, q, n, hf, rfl, rfl⟩))
    · intro headerLen b' closed hcheck hne
      unfold checkNCData at hcheck
      split at hcheck
      · contradiction
      · cases hcheck
        contradiction
      · case h_3 h' hd =>
        cases hcheck
        exact safeText_result h hd
      · rw [Except.ok.injEq, Prod.mk.injEq] at hcheck
        exact absurd hcheck.1.symm hne

/-- A pooled BUFFER_OBJ of a page into which `u` was received. -/
def holding (u : List Byte) : BufferObj :=
  { allocBObj zeroed 4096 with
    dwRecvedCount := BitVec.ofNat 32 u.length
    data := fun i => u.getD i 0 }

/-- "Content-Length: 123456789" and a blank line. -/
def nineDigits : List Byte :=
  contentLength ++ [0x31, 0x32, 0x33, 0x34, 0x35, 0x36, 0x37, 0x38, 0x39] ++ headerEnd

/-- Nine bytes are copied into the eight of `Length`. -/
theorem nine_digits_overflow : ¬(holding nineDigits).NcSafe := by
  intro h
  have hp : strstr ((holding nineDigits).text 0) headerEnd = some (some 25) := by decide +kernel
  have hq : strStrI ((holding nineDigits).text 0) contentLength = some (some 0) := by decide +kernel
  have hn : strstr ((holding nineDigits).text 0) crlf = some (some 25) := by decide +kernel
  have hle := (h.copy 25 0 25 hp hq hn).2.1
  contradiction

end BufferObj

end CustomersCard
