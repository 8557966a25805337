import CustomersCardMS.NcLeftovers

namespace CustomersCard
open TextSearch

/-- The number that a row of digits writes. -/
def decimal (n : ℕ) (digits : List Byte) : ℕ := digits.foldl (fun n b => 10*n+(b.toNat-0x30)) n

theorem isDigit_bounds {b : Byte} (h : isDigit b = true) : 0x30 ≤ b.toNat ∧ b.toNat ≤ 0x39 := by
  unfold isDigit at h
  rw [Bool.and_eq_true, decide_eq_true_eq, decide_eq_true_eq, BitVec.le_def, BitVec.le_def] at h
  exact h

theorem atoiDigits_decimal {digits v : List Byte} (h : ∀ b ∈ digits, isDigit b = true) (n : ℕ) :
    atoiDigits n (digits ++ 0 :: v) = some (decimal n digits) := by
  induction digits generalizing n with
  | nil => rfl
  | cons b bs ih =>
    rw [List.cons_append, atoiDigits, if_pos (h b List.mem_cons_self)]
    exact ih (fun b' hb' => h b' (List.mem_cons_of_mem b hb')) _

theorem atoi_cons (b : Byte) (bs : List Byte) : atoi (b :: bs) =
    if isSpace b then atoi bs
    else if b = 0x2d then (atoiDigits 0 bs).map fun n : ℕ => -(n : ℤ)
    else if b = 0x2b then (atoiDigits 0 bs).map fun n : ℕ => (n : ℤ)
    else (atoiDigits 0 (b :: bs)).map fun n : ℕ => (n : ℤ) := by
  rw [atoi]
  cases atoiDigits 0 bs with
  | none =>
    cases atoiDigits 0 (b :: bs) with
    | none => rfl
    | some m => rfl
  | some n =>
    cases atoiDigits 0 (b :: bs) with
    | none => rfl
    | some m => rfl

theorem digit_no_space {b : Byte} (h : isDigit b = true) : isSpace b = false := by
  revert h
  revert b
  decide

/-- `_tstoi` reads off a row of digits. -/
theorem atoi_decimal {digits v : List Byte} (h : ∀ b ∈ digits, isDigit b = true)
    (hne : digits ≠ []) : atoi (digits ++ 0 :: v) = some (decimal 0 digits : ℤ) := by
  cases digits with
  | nil => contradiction
  | cons b bs =>
    have hb := h b List.mem_cons_self
    have hminus : b ≠ 0x2d := by
      rintro rfl
      contradiction
    have hplus : b ≠ 0x2b := by
      rintro rfl
      contradiction
    rw [List.cons_append, atoi_cons, digit_no_space hb, if_neg Bool.false_ne_true, if_neg hminus,
      if_neg hplus, ← List.cons_append, atoiDigits_decimal h, Option.map_some]

theorem lengthValue_decimal {digits : List Byte} (h : ∀ b ∈ digits, isDigit b = true)
    (hne : digits ≠ []) (hlen : digits.length < LENGTH_SIZE) :
    lengthValue digits = some (decimal 0 digits : ℤ) := by
  obtain ⟨k, hk⟩ := Nat.exists_eq_add_of_lt hlen
  unfold lengthValue
  rw [if_pos (Nat.le_of_lt hlen), show LENGTH_SIZE-digits.length = k+1 by omega,
    List.replicate_succ]
  exact atoi_decimal h hne

theorem atoiDigits_lt {u : List Byte} {n m : ℕ} (h : atoiDigits n u = some m) :
    m < (n+1)*10^u.length := by
  induction u generalizing n with
  | nil => contradiction
  | cons b bs ih =>
    rw [atoiDigits] at h
    have hpos : 0 < 10^bs.length := Nat.pow_pos (by decide)
    rw [List.length_cons, Nat.pow_succ]
    split at h
    · case isTrue hb =>
      have hbounds := isDigit_bounds hb
      calc m < (10*n+(b.toNat-0x30)+1)*10^bs.length := ih h
        _ ≤ ((n+1)*10)*10^bs.length := Nat.mul_le_mul_right _ (by omega)
        _ = (n+1)*(10^bs.length*10) := by rw [Nat.mul_assoc, Nat.mul_comm 10]
    · calc m = n := (Option.some.inj h).symm
        _ < n+1 := Nat.lt_succ_self n
        _ ≤ (n+1)*(10^bs.length*10) := Nat.le_mul_of_pos_right _ (by omega)

theorem atoi_bound {u : List Byte} {v : ℤ} (h : atoi u = some v) : v.natAbs < 10^u.length := by
  induction u with
  | nil => contradiction
  | cons b bs ih =>
    rw [atoi_cons] at h
    have hle : 10^bs.length ≤ 10^(b :: bs).length :=
      Nat.pow_le_pow_right (by decide) (Nat.le_succ _)
    split at h
    · exact Nat.lt_of_lt_of_le (ih h) hle
    split at h
    · obtain ⟨m, hm, rfl⟩ := Option.map_eq_some_iff.mp h
      have hlt := atoiDigits_lt hm
      rw [Int.natAbs_neg, Int.natAbs_natCast]
      omega
    split at h
    · obtain ⟨m, hm, rfl⟩ := Option.map_eq_some_iff.mp h
      have hlt := atoiDigits_lt hm
      rw [Int.natAbs_natCast]
      omega
    · obtain ⟨m, hm, rfl⟩ := Option.map_eq_some_iff.mp h
      have hlt := atoiDigits_lt hm
      rw [Int.natAbs_natCast]
      omega

/-- Eight characters make no big number. -/
theorem lengthValue_bound {text : List Byte} {v : ℤ} (h : lengthValue text = some v) :
    v.natAbs < 10^8 := by
  unfold lengthValue at h
  split at h
  · case isTrue hle =>
    have hbound := atoi_bound h
    rwa [List.length_append, List.length_replicate, Nat.add_sub_cancel' hle] at hbound
  · contradiction

/-- The header of a request, from the request line to the blank line. -/
def headerText (before digits after : List Byte) : List Byte :=
  before ++ (contentLength ++ (digits ++ (crlf ++ after)))

/-- A line that begins at `i` has the field name Content-Length. -/
def fieldAt (u : List Byte) (i : ℕ) : Bool :=
  beginsWith (fun a b => a == b) crlf (u.drop (i-2)) &&
    beginsWith sameLetter contentLength.dropLast (u.drop i)

structure PushRequest where
  before : List Byte
  digits : List Byte
  after : List Byte
  body : List Byte
  -- The field is a line of its own, and gives the length of the body.
  line : crlf <:+ before
  numeral : ∀ b ∈ digits, isDigit b = true
  nonempty : digits ≠ []
  short : digits.length ≤ 7
  length : decimal 0 digits = body.length
  -- The header ends with its first blank line, and no other line has this field name.
  blank : find (fun a b => a == b) headerEnd (headerText before digits after) =
    some ((headerText before digits after).length-4)
  single : ∀ i < (headerText before digits after).length, 2 ≤ i →
    fieldAt (headerText before digits after) i = true → i = before.length

/-- What lies behind the received bytes `u` ends the searches, and makes no announcement of which
`u` could be all. -/
structure Harmless (u v : List Byte) : Prop where
  ends : announced (ncString (u ++ v)) = none → 0 ∈ v
  value : ∀ h text, announced (ncString (u ++ v)) = some (h, text) →
    ∃ n, lengthValue text = some n ∧ (u.length : ℤ) < h+n

namespace BufferObj

variable {b : BufferObj}

theorem compareLength_ok {headerLen : ℕ} {text : List Byte} {d : NcDecision} :
    b.compareLength headerLen text text.length = .ok d ↔ ∃ n, lengthValue text = some n ∧
      d = if headerLen+n > b.dwRecvedCount.toInt then .wait
        else if headerLen+n = b.dwRecvedCount.toInt then .complete headerLen
        else .close := by
  cases hv : lengthValue text with
  | none =>
    constructor
    · intro h
      unfold lengthValue at hv
      unfold compareLength at h
      rw [memcpyLength_text] at h
      split at hv
      · case isTrue hle =>
        rw [if_pos hle] at h
        dsimp only at h
        rw [hv] at h
        contradiction
      · case isFalse hle =>
        rw [if_neg hle] at h
        contradiction
    · rintro ⟨n, hn, _⟩
      contradiction
  | some v =>
    rw [b.compareLength_value hv]
    constructor
    · intro h
      refine ⟨v, rfl, ?_⟩
      apply Except.ok.inj
      rw [← h]
      split
      · rfl
      split
      · rfl
      · rfl
    · rintro ⟨n, hn, rfl⟩
      rw [← Option.some.inj hn]
      split
      · rfl
      split
      · rfl
      · rfl

/-- CheckNCData waits if and only if what lies behind the received bytes is harmless. -/
theorem ncDecision_wait_iff {u v : List Byte} (htext : b.dataBlock 0 = u ++ v) (hu : 0 ∉ u)
    (hcount : b.dwRecvedCount.toInt = u.length) : b.ncDecision = .ok .wait ↔ Harmless u v := by
  have hnul : (b.dataBlock 0).any isNul = true ↔ 0 ∈ v := by
    rw [any_isNul, htext, List.mem_append, or_iff_right hu]
  cases ha : announced (ncString (u ++ v)) with
  | none =>
    rw [ncDecision_none _ (htext ▸ ha)]
    constructor
    · intro h
      refine ⟨fun _ => ?_, ?_⟩
      · rw [← hnul]
        by_contra hnone
        rw [if_neg hnone] at h
        contradiction
      · intro headerLen text hsome
        rw [ha] at hsome
        contradiction
    · intro h
      rw [if_pos (hnul.mpr (h.ends ha))]
  | some found =>
    rw [ncDecision_some _ (htext ▸ ha), compareLength_ok, hcount]
    constructor
    · rintro ⟨n, hn, hwait⟩
      refine ⟨?_, ?_⟩
      · intro hnone
        rw [ha] at hnone
        contradiction
      · intro headerLen text hsome
        rw [ha, Option.some.injEq] at hsome
        rw [hsome] at hn hwait
        refine ⟨n, hn, ?_⟩
        by_contra hle
        rw [if_neg hle] at hwait
        split at hwait
        · contradiction
        · contradiction
    · intro h
      obtain ⟨n, hn, hlt⟩ := h.value _ _ ha
      exact ⟨n, hn, (if_pos hlt).symm⟩

theorem ncDecision_complete_iff {headerLen : ℕ} : b.ncDecision = .ok (.complete headerLen) ↔
    ∃ text n, announced (ncString (b.dataBlock 0)) = some (headerLen, text) ∧
      lengthValue text = some n ∧ headerLen+n = b.dwRecvedCount.toInt := by
  constructor
  · intro h
    cases ha : announced (ncString (b.dataBlock 0)) with
    | none =>
      rw [ncDecision_none _ ha] at h
      split at h
      · cases h
      · cases h
    | some found =>
      rw [ncDecision_some _ ha] at h
      obtain ⟨n, hn, hd⟩ := compareLength_ok.mp h
      split at hd
      · contradiction
      split at hd
      · case isTrue heq =>
        rw [NcDecision.complete.inj hd]
        exact ⟨found.2, n, rfl, hn, heq⟩
      · contradiction
  · rintro ⟨text, n, ha, hn, heq⟩
    rw [ncDecision_some _ ha]
    apply compareLength_ok.mpr
    refine ⟨n, hn, ?_⟩
    rw [if_neg (by omega), if_pos heq]

end BufferObj

namespace PushRequest

variable (r : PushRequest)

def header : List Byte := headerText r.before r.digits r.after

def bytes : List Byte := r.header ++ r.body

/-- What follows the first "Content-Length: " of the header, in any case, on its line. -/
def lengthText : List Byte := ((announced r.header).map Prod.snd).getD []

theorem length_bytes : r.bytes.length = r.header.length+r.body.length := List.length_append

theorem header_starts : r.header <+: r.bytes := List.prefix_append _ _

theorem body_bound : r.body.length < 10^8 := by
  have hshort := r.short
  have hvalue := lengthValue_decimal r.numeral r.nonempty (Nat.lt_succ_of_le hshort)
  have hbound := lengthValue_bound hvalue
  rwa [Int.natAbs_natCast, r.length] at hbound

theorem header_pos : 4 ≤ r.header.length := by
  have hbound := find_bound r.blank
  change _+4 ≤ r.header.length at hbound
  omega

theorem announced_header : announced r.header = some (r.header.length, r.lengthText) := by
  have hfield : r.header.drop r.before.length =
      contentLength ++ (r.digits ++ (crlf ++ r.after)) := List.drop_left
  have hlen : r.header.length = r.before.length+(16+(r.digits.length+(2+r.after.length))) := by
    unfold header headerText
    simp only [List.length_append]
    rfl
  obtain ⟨q, hq, hlength⟩ :
      ∃ q ≤ r.before.length, find sameLetter contentLength r.header = some q := by
    apply find_of_beginsWith
    · omega
    · rw [hfield, beginsWith_append (Nat.le_refl _)]
      decide
  obtain ⟨n, _, hline⟩ : ∃ n ≤ r.before.length+16+r.digits.length-q,
      find (fun a b => a == b) crlf (r.header.drop q) = some n := by
    apply find_of_beginsWith
    · rw [List.length_drop]
      omega
    · rw [List.drop_drop, show q+(r.before.length+16+r.digits.length-q) =
        r.before.length+(16+r.digits.length) by omega, ← List.drop_drop, hfield, ← List.drop_drop,
        List.drop_left' (show contentLength.length = 16 from rfl), List.drop_left,
        beginsWith_append (Nat.le_refl _)]
      decide
  have hsome : announced r.header = some (r.header.length, lineText r.header q n) := by
    apply announced_iff.mpr
    refine ⟨_, q, n, ⟨r.blank, hlength, hline⟩, ?_, rfl⟩
    have hpos := r.header_pos
    exact (Nat.sub_add_cancel hpos).symm
  unfold lengthText
  rw [hsome]
  rfl

/-- A request whose field comes first announces its own length. -/
theorem lengthValue_first (h : find sameLetter contentLength r.header = some r.before.length) :
    lengthValue r.lengthText = some (r.body.length : ℤ) := by
  have hfield : r.header.drop r.before.length =
      contentLength ++ (r.digits ++ (crlf ++ r.after)) := List.drop_left
  have hbreak : ∀ b ∈ contentLength ++ r.digits, ((0x0d : Byte) == b) = false := by
    intro b hb
    rcases List.mem_append.mp hb with hb | hb
    · have hnone : ∀ b ∈ contentLength, ((0x0d : Byte) == b) = false := by decide
      exact hnone b hb
    · have hdigit := r.numeral b hb
      apply Bool.eq_false_iff.mpr
      intro heq
      rw [← eq_of_beq heq] at hdigit
      contradiction
  have hline : find (fun a b => a == b) crlf (r.header.drop r.before.length) =
      some (16+r.digits.length) := by
    have hfirst : find (fun a b => a == b) crlf (crlf ++ r.after) = some 0 := by
      apply find_append
      decide
    rw [hfield, ← List.append_assoc]
    have hskip : find (fun a b => a == b) crlf (contentLength ++ r.digits ++ (crlf ++ r.after)) =
        (find (fun a b => a == b) crlf (crlf ++ r.after)).map
          (· + (contentLength ++ r.digits).length) := find_skip hbreak
    rw [hskip, hfirst, Option.map_some, Nat.zero_add,
      List.length_append]
    rfl
  obtain ⟨p, q, n, hf, _, htext⟩ := announced_iff.mp r.announced_header
  have hq : q = r.before.length := Option.some.inj (hf.length.symm.trans h)
  rw [hq] at hf htext
  have hn : n = 16+r.digits.length := Option.some.inj (hf.line.symm.trans hline)
  have hdigits : lineText r.header r.before.length (16+r.digits.length) = r.digits := by
    unfold lineText
    rw [← List.drop_drop, hfield, List.drop_left' (show contentLength.length = 16 from rfl),
      Nat.add_sub_cancel_left, List.take_left]
  rw [htext, hn, hdigits, lengthValue_decimal r.numeral r.nonempty (Nat.lt_succ_of_le r.short),
    r.length]

variable {r} {b : BufferObj} {v : List Byte}

/-- A buffer with the whole request and `v` behind it is taken for a complete request if and only
if the header has no NUL and announces the length of the body. -/
theorem completes_iff (htext : b.dataBlock 0 = r.bytes ++ v)
    (hcount : b.dwRecvedCount = BitVec.ofNat 32 r.bytes.length) (hlen : r.bytes.length < 2^32) :
    b.ncDecision = .ok (.complete r.header.length) ↔ 0 ∉ r.header ∧ r.bytes.length < 2^31 ∧
      lengthValue r.lengthText = some (r.body.length : ℤ) := by
  have hint : b.dwRecvedCount.toInt =
      if r.bytes.length < 2^31 then (r.bytes.length : ℤ) else r.bytes.length-2^32 := by
    rw [hcount, BitVec.toInt_eq_toNat_cond, BitVec.toNat_ofNat, Nat.mod_eq_of_lt hlen]
    split <;> split <;> omega
  have hbytes := r.length_bytes
  rw [BufferObj.ncDecision_complete_iff, hint, htext,
    show r.bytes ++ v = r.header ++ (r.body ++ v) from List.append_assoc _ _ _]
  constructor
  · rintro ⟨text, n, ha, hn, heq⟩
    have hnul : 0 ∉ r.header := by
      intro hz
      rw [ncString_of_mem hz] at ha
      obtain ⟨p, q, k, hf, hp, _⟩ := announced_iff.mp ha
      have hbound := find_bound hf.header
      change p+4 ≤ _ at hbound
      have hwhole : ncString r.header = r.header := by
        have hbegin : ncString r.header <+: r.header := List.takeWhile_prefix _
        apply hbegin.eq_of_length_le
        omega
      rw [← hwhole] at hz
      have hend := List.mem_takeWhile_imp hz
      contradiction
    rw [ncString_append hnul, announced_append r.announced_header, Option.some.injEq,
      Prod.mk.injEq] at ha
    rw [← ha.2] at hn
    have hsmall := lengthValue_bound hn
    have hbody := r.body_bound
    split at heq
    · case isTrue hlt =>
      refine ⟨hnul, hlt, ?_⟩
      rw [hn]
      congr 1
      omega
    · omega
  · rintro ⟨hnul, hlt, hvalue⟩
    refine ⟨r.lengthText, r.body.length, ?_, hvalue, ?_⟩
    · rw [ncString_append hnul, announced_append r.announced_header]
    · rw [if_pos hlt, hbytes]
      omega

/-- A first part of a request is waited on if what lies behind it in the buffer is harmless as
long as the header is not complete. -/
theorem waits {u : List Byte} (hu : u <+: r.bytes) (hlt : u.length < r.bytes.length)
    (htext : b.dataBlock 0 = u ++ v) (hcount : b.dwRecvedCount.toInt = u.length)
    (hnul : 0 ∉ r.header)
    (hvalue : lengthValue r.lengthText = some (r.body.length : ℤ))
    (hharm : u.length < r.header.length → Harmless u v) : b.ncDecision = .ok .wait := by
  rcases Nat.lt_or_ge u.length r.header.length with hhead | hhead
  · have hstart : u <+: r.header :=
      List.prefix_of_prefix_length_le hu r.header_starts (Nat.le_of_lt hhead)
    apply (BufferObj.ncDecision_wait_iff htext _ hcount).mpr (hharm hhead)
    intro hz
    exact hnul (hstart.subset hz)
  · have hbytes := r.length_bytes
    obtain ⟨w, rfl⟩ := List.prefix_of_prefix_length_le r.header_starts hu hhead
    rw [List.append_assoc] at htext
    rw [BufferObj.ncDecision_some b (by
      rw [htext, ncString_append hnul]
      exact announced_append r.announced_header)]
    apply BufferObj.compareLength_ok.mpr
    refine ⟨r.body.length, hvalue, ?_⟩
    rw [if_pos (by omega)]

/-- A NUL right behind the received bytes is harmless. -/
theorem harmless_nul {u : List Byte} (hu : u <+: r.header) (hlt : u.length < r.header.length)
    (hnul : 0 ∉ r.header) : Harmless u (0 :: v) := by
  have hstring : ncString (u ++ 0 :: v) = u := by
    rw [ncString_append fun hz => hnul (hu.subset hz)]
    exact List.append_nil u
  have hnone : announced u = none := by
    apply Option.eq_none_iff_forall_not_mem.mpr
    rintro ⟨headerLen, text⟩ ha
    obtain ⟨p, q, n, hf, _, _⟩ := announced_iff.mp ha
    obtain ⟨w, hw⟩ := hu
    have hheader := find_append (v := w) hf.header
    have hbound := find_bound hf.header
    rw [hw, show r.header = headerText r.before r.digits r.after from rfl, r.blank,
      Option.some.injEq] at hheader
    change p+4 ≤ _ at hbound
    have hpos := r.header_pos
    change r.header.length-4 = p at hheader
    omega
  refine ⟨fun _ => List.mem_cons_self, ?_⟩
  intro headerLen text ha
  rw [hstring, hnone] at ha
  contradiction

end PushRequest

end CustomersCard
