import CustomersCardMS.DecoderSafety

namespace CustomersCard

/-- The length of the message of the frame that `u` begins with. -/
def frameAt (u : List Byte) : Option ℕ :=
  if (frameLength u).toNat+8 ≤ u.length ∧ frameMagic u ∧ frameChecks u then
    some ((frameLength u).toNat+2)
  else none

/-- `fuel` bounds the number of frames. -/
def framesWithin : ℕ → List Byte → List (List Byte)
  | 0, _ => []
  | fuel+1, u =>
    match frameAt u with
    | none => []
    | some n => (u.drop 6).take n :: framesWithin fuel (u.drop (n+6))

/-- The messages of the frames that a stream begins with. -/
def frames (u : List Byte) : List (List Byte) := framesWithin u.length u

/-- `ms` are the messages of the first frames of a stream, and `rest` comes behind them. -/
inductive Parses : List Byte → List (List Byte) → List Byte → Prop
  | nil (u : List Byte) : Parses u [] u
  | snoc {u rest : List Byte} {ms : List (List Byte)} {n : ℕ} : Parses u ms rest →
      BeginsFrame rest n → Parses u (ms ++ [(rest.drop 6).take n]) (rest.drop (n+6))

theorem frameAt_iff (u : List Byte) (n : ℕ) : frameAt u = some n ↔ BeginsFrame u n := by
  unfold frameAt
  constructor
  · intro h
    split at h
    · case isTrue hok =>
      rw [Option.some.injEq] at h
      exact ⟨by omega, hok.2.1, h, hok.2.2⟩
    · contradiction
  · intro h
    have hlen := h.complete
    have hn := h.length
    rw [if_pos ⟨by omega, h.magic, h.checks⟩, hn]

theorem BeginsFrame.append {u : List Byte} {n : ℕ} (h : BeginsFrame u n) (v : List Byte) :
    BeginsFrame (u ++ v) n := by
  have hlen := h.complete
  have hn := h.length
  obtain ⟨hm, hL⟩ := header_append u v (by omega)
  refine ⟨?_, hm.mpr h.magic, ?_, ?_⟩
  · rw [List.length_append]
    omega
  · rw [hL]
    exact hn
  · have hpayload : framePayload (u ++ v) = framePayload u := by
      unfold framePayload
      rw [hL, List.drop_append_of_le_length (by omega),
        List.take_append_of_le_length (by rw [List.length_drop]; omega)]
    unfold frameChecks
    rw [hL, hpayload, List.getD_append _ _ _ _ (by omega), List.getD_append _ _ _ _ (by omega)]
    exact h.checks

/-- What a stream begins with does not change when more arrives. -/
theorem Parses.append {u rest : List Byte} {ms : List (List Byte)} (h : Parses u ms rest)
    (v : List Byte) : Parses (u ++ v) ms (rest ++ v) := by
  induction h with
  | nil => exact Parses.nil (u ++ v)
  | @snoc rest ms n _ hb ih =>
    have hlen := hb.complete
    have hnext := ih.snoc (hb.append v)
    rwa [List.drop_append_of_le_length (by omega), List.drop_append_of_le_length (by omega),
      List.take_append_of_le_length (by rw [List.length_drop]; omega)] at hnext

theorem Parses.trans {u v w : List Byte} {ms ns : List (List Byte)} (h : Parses u ms v)
    (h' : Parses v ns w) : Parses u (ms ++ ns) w := by
  induction h' with
  | nil => rwa [List.append_nil]
  | snoc _ hb ih =>
    rw [← List.append_assoc]
    exact ih.snoc hb

theorem Parses.cons {u : List Byte} {n : ℕ} (h : BeginsFrame u n) :
    Parses u [(u.drop 6).take n] (u.drop (n+6)) := (Parses.nil u).snoc h

theorem framesWithin_parses (fuel : ℕ) (u : List Byte) :
    ∃ rest, Parses u (framesWithin fuel u) rest := by
  induction fuel generalizing u with
  | zero => exact ⟨u, Parses.nil u⟩
  | succ fuel ih =>
    rw [framesWithin]
    split
    · exact ⟨u, Parses.nil u⟩
    · case h_2 n hn =>
      obtain ⟨rest, hrest⟩ := ih (u.drop (n+6))
      exact ⟨rest, (Parses.cons ((frameAt_iff u n).mp hn)).trans hrest⟩

/-- The frames of a stream are those that were parsed of it, and those of the rest. -/
theorem Parses.frames_eq {u rest : List Byte} {ms : List (List Byte)} (h : Parses u ms rest) :
    ∃ fuel, rest.length ≤ fuel ∧ frames u = ms ++ framesWithin fuel rest := by
  induction h with
  | nil => exact ⟨u.length, Nat.le_refl _, rfl⟩
  | @snoc rest ms n _ hb ih =>
    obtain ⟨fuel, hle, heq⟩ := ih
    have hlen := hb.complete
    obtain ⟨fuel, rfl⟩ := Nat.exists_eq_succ_of_ne_zero (by omega : fuel ≠ 0)
    rw [framesWithin, (frameAt_iff rest n).mpr hb] at heq
    refine ⟨fuel, ?_, ?_⟩
    · rw [List.length_drop]
      omega
    · rw [heq, List.append_assoc]
      rfl

theorem Parses.prefix_frames {u rest : List Byte} {ms : List (List Byte)} (h : Parses u ms rest) :
    ms <+: frames u := by
  obtain ⟨fuel, _, heq⟩ := h.frames_eq
  rw [heq]
  exact List.prefix_append ms _

theorem frames_mono {u v : List Byte} (h : u <+: v) : frames u <+: frames v := by
  obtain ⟨w, rfl⟩ := h
  obtain ⟨rest, hrest⟩ := framesWithin_parses u.length u
  exact (hrest.append w).prefix_frames

theorem framesWithin_nil (fuel : ℕ) : framesWithin fuel [] = [] := by
  cases fuel with
  | zero => rfl
  | succ fuel => rfl

/-- The frames that a client sends are the messages of its payloads. -/
theorem frames_encode (ps : List (List Byte)) (hps : ∀ p ∈ ps, p.length < 2^32) :
    frames (ps.flatMap encode) = ps.map message := by
  have hall : Parses (ps.flatMap encode) (ps.map message) [] := by
    induction ps with
    | nil => exact Parses.nil []
    | cons p ps ih =>
      have hb := encode_begins p (ps.flatMap encode) (hps p List.mem_cons_self)
      have hone := Parses.cons hb
      rw [encode_message, List.drop_append_of_le_length (by rw [length_encode]),
        List.drop_eq_nil_of_le (by rw [length_encode]), List.nil_append] at hone
      exact hone.trans (ih fun q hq => hps q (List.mem_cons_of_mem p hq))
  obtain ⟨fuel, _, heq⟩ := hall.frames_eq
  rw [heq, framesWithin_nil, List.append_nil]

end CustomersCard
