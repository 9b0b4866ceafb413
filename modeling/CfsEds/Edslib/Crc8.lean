import CfsEds.Edslib.CrcLoop

/-!
# CRC-8 conformance

The comment above `EDSLIB_CRC8_POLY` states CRC-8 with polynomial `0x07`, initial
value zero and no reflection: `crc8Plain`. The table, however, is built from a
bit-reversed index and stored bit-reversed, so the loop runs the register with
both the input bytes and the output reflected: `crc8Reflected`. That is what the
function returns (`crc8_returns_reflected`), and the two differ on every
non-empty message length.
-/

namespace CfsEds.Edslib

open CfsEds.Lib.Loop CfsEds.Lib.Crc List

/-- CRC-8 as the source comment states it. -/
def crc8Plain (bytes : List (BitVec 8)) : BitVec 8 :=
  feed crc8Poly 0 (bytes.flatMap octetBits)

/-- CRC-8 with reflected input and output. -/
def crc8Reflected (bytes : List (BitVec 8)) : BitVec 8 :=
  (crc8Plain (bytes.map BitVec.reverse)).reverse

/-- The bytes of the message without the byte at the error control position. -/
def messageBytes (buf : Buffer) (total pos : Nat) : List (BitVec 8) :=
  ((List.range (total / 8)).filter fun i => i ≠ pos / 8).map buf

/-! ## The table step -/

private theorem crc8Table_eq :
    ∀ i : BitVec 8, crc8Table i = (shifts crc8Poly 8 i.reverse).reverse := by
  decide +kernel

private theorem feed_octet_zero :
    ∀ b : BitVec 8, feed crc8Poly 0#8 (octetBits b) = shifts crc8Poly 8 b := by
  decide +kernel

private theorem reverse_xor (a b : BitVec 8) : (a ^^^ b).reverse = a.reverse ^^^ b.reverse := by
  apply BitVec.eq_of_getLsbD_eq
  intro i _
  simp [BitVec.getLsbD_reverse, BitVec.getMsbD_xor]

/-- On reversed registers a table step feeds the reversed byte. -/
theorem reverse_crc8_update (c b : BitVec 8) :
    (crc8.update c b).reverse = feed crc8Poly c.reverse (octetBits b.reverse) := by
  show (crc8Table (c ^^^ b)).reverse = _
  rw [crc8Table_eq, BitVec.reverse_reverse_eq, reverse_xor, shifts_xor,
    feed_eq_xor_shifts crc8Poly c.reverse, feed_octet_zero, BitVec.xor_comm]
  simp [octetBits]

/-- A run of table steps, seen on reversed registers. -/
theorem reverse_updateBytes_crc8 (buf : Buffer) :
    ∀ (n a : Nat) (c : BitVec 8), (updateBytes crc8 buf a n c).reverse =
      feed crc8Poly c.reverse (((List.range' a n).map fun i => (buf i).reverse).flatMap octetBits) := by
  intro n
  induction n with
  | zero => intro a c; rfl
  | succ n ih =>
    intro a c
    rw [updateBytes_succ, ih, reverse_crc8_update, List.range'_succ, map_cons,
      flatMap_cons, feed_append]

/-! ## The function returns the reflected CRC -/

theorem crc8Returns_iff {buf : Buffer} {total pos : Nat} {v : BitVec 8} :
    ErrorControlReturns .crc8 buf total pos (v.setWidth 64) ↔
      ∃ t, Yields (crcCond total) (crcBody crc8 buf total pos) (crcStart crc8 total pos) t ∧
        t.crc = v := by
  show (∃ fuel, crcRun crc8 fuel buf total pos = some (v.setWidth 64)) ↔ _
  rw [crcRun_eq_some_iff]
  refine exists_congr fun t => and_congr_right fun _ => ⟨fun h => ?_, fun h => by rw [h]⟩
  have := congrArg (BitVec.setWidth 8) h
  simpa using this

/-- Without a field inside, the message is all the bytes. -/
theorem messageBytes_of_le {buf : Buffer} {total pos n : Nat} (hn : total = 8 * n)
    (hle : total ≤ pos) : messageBytes buf total pos = (List.range' 0 n).map buf := by
  rw [messageBytes, filter_eq_self.2, show total / 8 = n by omega, range_eq_range']
  intro i hi
  have := mem_range.1 hi
  simp only [ne_eq, decide_eq_true_eq]
  omega

/-- A field inside removes its byte. -/
theorem messageBytes_of_lt {buf : Buffer} {total pos a m : Nat} (ha : pos = 8 * a)
    (hn : total = 8 * (a + 1 + m)) :
    messageBytes buf total pos = (List.range' 0 a).map buf ++ (List.range' (a + 1) m).map buf := by
  have hsplit : List.range (total / 8) = List.range' 0 a ++ a :: List.range' (a + 1) m := by
    have := @List.range'_append_1 0 a (m + 1)
    rw [Nat.zero_add] at this
    rw [← List.range'_succ, this, range_eq_range', show total / 8 = a + (m + 1) by omega]
  have hhead : (List.range' 0 a).filter (fun i => i ≠ a) = List.range' 0 a := by
    apply filter_eq_self.2
    intro i hi
    have := mem_range'_1.1 hi
    simp only [ne_eq, decide_eq_true_eq]
    omega
  have htail : (List.range' (a + 1) m).filter (fun i => i ≠ a) = List.range' (a + 1) m := by
    apply filter_eq_self.2
    intro i hi
    have := mem_range'_1.1 hi
    simp only [ne_eq, decide_eq_true_eq]
    omega
  rw [messageBytes, hsplit, show pos / 8 = a by omega, filter_append, hhead,
    filter_cons_of_neg (by simp), htail, map_append]

/-- On whole bytes the function computes the reflected CRC-8 of the message. -/
theorem crc8_returns_reflected (buf : Buffer) {total pos : Nat} (htotal : total < 2 ^ 32)
    (hdvd : 8 ∣ total) (hpos : 8 ∣ pos) :
    ErrorControlReturns .crc8 buf total pos
      ((crc8Reflected (messageBytes buf total pos)).setWidth 64) := by
  rw [crc8Returns_iff]
  obtain ⟨n, hn⟩ := hdvd
  obtain ⟨a, ha⟩ := hpos
  rcases Nat.lt_or_ge pos total with hlt | hge
  · obtain ⟨m, hm⟩ : ∃ m, n = a + 1 + m := ⟨n - (a + 1), by omega⟩
    obtain ⟨t, ht, hcrc⟩ := yields_aligned_field crc8 buf hlt htotal ha (f := 1) rfl (by omega)
      (by omega) (n := m) (.inr (by omega))
    refine ⟨t, ht, ?_⟩
    rw [hcrc, ← @BitVec.reverse_reverse_eq _ (updateBytes crc8 _ _ _ _), reverse_updateBytes_crc8,
      reverse_updateBytes_crc8, ← feed_append, messageBytes_of_lt (m := m) ha (by omega), crc8Reflected,
      crc8Plain, ← flatMap_append, map_append, map_map, map_map]
    rfl
  · obtain ⟨t, ht, hcrc⟩ := yields_aligned crc8 buf hge htotal hn
    refine ⟨t, ht, ?_⟩
    rw [hcrc, ← @BitVec.reverse_reverse_eq _ (updateBytes crc8 _ _ _ _), reverse_updateBytes_crc8,
      messageBytes_of_le hn hge, crc8Reflected, crc8Plain, map_map]
    rfl

/-! ## Comparison with the stated CRC -/

private theorem feed_zero_octets :
    ∀ l : List (BitVec 8), (∀ b ∈ l, b = 0) → feed crc8Poly 0 (l.flatMap octetBits) = 0 := by
  intro l
  induction l with
  | nil => intro _; rfl
  | cons b l ih =>
    intro h
    have hb : b = 0 := h b (by simp)
    rw [flatMap_cons, feed_append, hb, show feed crc8Poly 0 (octetBits 0) = 0 by decide]
    exact ih fun x hx => h x (by simp [hx])

/-- Zero bytes and a final `0x01` tell the two registers apart. -/
theorem crc8Plain_ne_reflected {l : List (BitVec 8)} (h : ∀ b ∈ l, b = 0) :
    crc8Plain (l ++ [1]) ≠ crc8Reflected (l ++ [1]) := by
  have hplain : crc8Plain (l ++ [1]) = 0x07 := by
    rw [crc8Plain, flatMap_append, feed_append, feed_zero_octets l h]
    decide
  have hrev : ∀ b ∈ l.map BitVec.reverse, b = 0 := by
    intro b hb
    obtain ⟨x, hx, rfl⟩ := mem_map.1 hb
    rw [h x hx]
    decide
  have hreflected : crc8Reflected (l ++ [1]) = 0x91 := by
    rw [crc8Reflected, crc8Plain, map_append, flatMap_append, feed_append, feed_zero_octets _ hrev]
    decide +kernel
  rw [hplain, hreflected]
  decide

/-- Any message with a byte in it can be made to distinguish them. -/
theorem exists_crc8Plain_ne {total pos : Nat}
    (hne : (List.range (total / 8)).filter (fun i => i ≠ pos / 8) ≠ []) :
    ∃ buf, crc8Plain (messageBytes buf total pos) ≠ crc8Reflected (messageBytes buf total pos) := by
  rcases eq_nil_or_concat ((List.range (total / 8)).filter fun i => i ≠ pos / 8) with
    h | ⟨l, j, h⟩
  · exact absurd h hne
  rw [concat_eq_append] at h
  have hnodup : (l ++ [j]).Nodup := by
    rw [← h]
    exact nodup_range.filter _
  have hj : j ∉ l := by
    intro hmem
    have := (nodup_append.1 hnodup).2.2 j hmem j (by simp)
    exact this rfl
  refine ⟨fun i => if i = j then 1 else 0, ?_⟩
  rw [messageBytes, h, map_append, map_singleton, if_pos rfl]
  apply crc8Plain_ne_reflected
  intro b hb
  obtain ⟨i, hi, rfl⟩ := mem_map.1 hb
  rw [if_neg]
  intro hij
  exact hj (hij ▸ hi)

/-- `EdsLib_ErrorControlCompute` with CRC8 on whole bytes: on one buffer it gives
the stated CRC-8 exactly when the message's stated and reflected CRC agree, and
it gives it on every buffer only when there is no message byte at all. -/
theorem crc8_conforms_iff_reflected (totalBitSize errCtlBitPos : BitVec 32)
    (htotal : 8 ∣ totalBitSize.toNat) (hpos : 8 ∣ errCtlBitPos.toNat) :
    (∀ buf : Buffer, ErrorControlReturns .crc8 buf totalBitSize.toNat errCtlBitPos.toNat ((crc8Plain
            (messageBytes buf totalBitSize.toNat errCtlBitPos.toNat)).setWidth 64) ↔
        crc8Plain (messageBytes buf totalBitSize.toNat errCtlBitPos.toNat) =
          crc8Reflected (messageBytes buf totalBitSize.toNat errCtlBitPos.toNat)) ∧
    ((∀ buf : Buffer, ErrorControlReturns .crc8 buf totalBitSize.toNat errCtlBitPos.toNat
        ((crc8Plain (messageBytes buf totalBitSize.toNat errCtlBitPos.toNat)).setWidth 64)) ↔
      totalBitSize.toNat = 0 ∨ totalBitSize.toNat = 8 ∧ errCtlBitPos.toNat = 0) := by
  have hlt := totalBitSize.isLt
  generalize totalBitSize.toNat = total at *
  generalize errCtlBitPos.toNat = pos at *
  have hone : ∀ buf : Buffer, ErrorControlReturns .crc8 buf total pos
          ((crc8Plain (messageBytes buf total pos)).setWidth 64) ↔
        crc8Plain (messageBytes buf total pos) = crc8Reflected (messageBytes buf total pos) := by
    intro buf
    have hcode := crc8_returns_reflected buf hlt htotal hpos
    refine ⟨fun h => ?_, fun h => by rwa [h]⟩
    obtain ⟨t, ht, hcrc⟩ := crc8Returns_iff.1 h
    obtain ⟨u, hu, hcrc'⟩ := crc8Returns_iff.1 hcode
    rw [← hcrc, ← hcrc', ht.unique hu]
  refine ⟨hone, fun hall => ?_, fun h buf => (hone buf).2 ?_⟩
  · by_contra hbytes
    have hne : (List.range (total / 8)).filter (fun i => i ≠ pos / 8) ≠ [] := by
      intro hnil
      have hmem := filter_eq_nil_iff.1 hnil
      have h0 := hmem 0
      have h1 := hmem 1
      simp only [mem_range, ne_eq, decide_eq_true_eq, not_not] at h0 h1
      omega
    obtain ⟨buf, hbuf⟩ := exists_crc8Plain_ne hne
    exact hbuf ((hone buf).1 (hall buf))
  · have hnil : messageBytes buf total pos = [] := by
      rcases h with rfl | ⟨rfl, rfl⟩
      · rfl
      · rfl
    rw [hnil]
    decide

/-- A two-byte message, its second byte the field. -/
theorem crc8_conforms_iff_reflected_two_bytes :
    (8 ∣ (16 : BitVec 32).toNat ∧ 8 ∣ (8 : BitVec 32).toNat) ∧
    ¬ ∀ buf : Buffer, ErrorControlReturns .crc8 buf (16 : BitVec 32).toNat (8 : BitVec 32).toNat
        ((crc8Plain (messageBytes buf (16 : BitVec 32).toNat (8 : BitVec 32).toNat)).setWidth 64) :=
  ⟨by decide, fun h =>
    absurd ((crc8_conforms_iff_reflected 16 8 (by decide) (by decide)).2.1 h) (by decide)⟩

/-- The single byte `0x01`: the table gives `0x91`, the stated CRC-8 is `0x07`. -/
theorem crc8_conforms_fails_at_one : ErrorControlReturns .crc8 (fun _ => 1) 8 8 0x91 ∧
      crc8Plain (messageBytes (fun _ => 1) 8 8) = 0x07 :=
  ⟨⟨2, by decide⟩, by decide⟩

end CfsEds.Edslib
