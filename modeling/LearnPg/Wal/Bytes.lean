import LearnPg.Basis.HexText

/-! Byte strings as both WAL readers handle them. An index past the end reads
as zero here; the readers only index where they have checked the length. -/
namespace LearnPg.Wal
open LearnPg.Basis

abbrev Bytes := List UInt8

/-- `bytes[lo:hi]`. -/
def slice (bytes : Bytes) (lo hi : Nat) : Bytes := (bytes.drop lo).take (hi - lo)

def byteAt (bytes : Bytes) (i : Nat) : UInt8 := bytes.getD i 0

def readLE16 (b : Bytes) : UInt16 :=
  (byteAt b 0).toUInt16 ||| (byteAt b 1).toUInt16 <<< 8

def readLE32 (b : Bytes) : UInt32 :=
  (byteAt b 0).toUInt32 ||| (byteAt b 1).toUInt32 <<< 8 |||
    (byteAt b 2).toUInt32 <<< 16 ||| (byteAt b 3).toUInt32 <<< 24

def readLE64 (b : Bytes) : UInt64 :=
  (readLE32 (slice b 0 4)).toUInt64 ||| (readLE32 (slice b 4 8)).toUInt64 <<< 32

def readBE32 (b : Bytes) : UInt32 :=
  (byteAt b 0).toUInt32 <<< 24 ||| (byteAt b 1).toUInt32 <<< 16 |||
    (byteAt b 2).toUInt32 <<< 8 ||| (byteAt b 3).toUInt32

def readBE64 (b : Bytes) : UInt64 :=
  (readBE32 (slice b 0 4)).toUInt64 <<< 32 ||| (readBE32 (slice b 4 8)).toUInt64

@[simp] theorem slice_length (bytes : Bytes) (lo hi : Nat) :
    (slice bytes lo hi).length = min (hi - lo) (bytes.length - lo) := by
  simp [slice]

theorem byteAt_take {bytes : Bytes} {n i : Nat} (h : i < n) :
    byteAt (bytes.take n) i = byteAt bytes i := by
  simp [byteAt, List.getD_eq_getElem?_getD, h]

theorem readLE32_take {bytes : Bytes} {n : Nat} (h : 4 ≤ n) :
    readLE32 (bytes.take n) = readLE32 bytes := by
  simp only [readLE32, byteAt_take (show 0 < n by omega), byteAt_take (show 1 < n by omega),
    byteAt_take (show 2 < n by omega), byteAt_take (show 3 < n by omega)]

theorem readLE32_slice (bytes : Bytes) (lo : Nat) :
    readLE32 (slice bytes lo (lo + 4)) = readLE32 (bytes.drop lo) :=
  readLE32_take (by omega)

/-! Numerals in the texts. -/

/-- `%X/%08X`, the printed form of an LSN. -/
def formatLSN (hi lo : UInt32) : String :=
  String.ofList (HexText.numeral hi.toNat ++ '/' :: HexText.padded 8 lo.toNat)

def formatLSN64 (lsn : UInt64) : String :=
  formatLSN (lsn >>> 32).toUInt32 lsn.toUInt32

theorem formatLSN_injective {hi lo hi' lo' : UInt32} (h : formatLSN hi lo = formatLSN hi' lo') :
    hi = hi' ∧ lo = lo' := by
  have hchars := String.ofList_injective h
  have hslash (lo : UInt32) : ∀ c ∈ ('/' :: HexText.padded 8 lo.toNat).head?,
      HexText.digitValue c = none := by simp; decide
  have hhi : hi.toNat = hi'.toNat := by
    rw [← HexText.value_numeral hi.toNat _ (hslash lo), hchars,
      HexText.value_numeral hi'.toNat _ (hslash lo')]
  rw [hhi, List.append_cancel_left_eq, List.cons.injEq] at hchars
  have hlo : lo.toNat = lo'.toNat := by
    rw [← HexText.value_padded 8 lo.toNat, hchars.2, HexText.value_padded]
  exact ⟨UInt32.toNat_inj.mp hhi, UInt32.toNat_inj.mp hlo⟩

theorem formatLSN64_injective : Function.Injective formatLSN64 := by
  intro a b h
  obtain ⟨hhi, hlo⟩ := formatLSN_injective h
  rw [← UInt32.toNat_inj] at hhi hlo
  rw [← UInt64.toNat_inj]
  simp only [UInt64.toNat_toUInt32, UInt64.toNat_shiftRight] at hhi hlo
  have ha := a.toNat_lt
  have hb := b.toNat_lt
  simp [Nat.shiftRight_eq_div_pow] at hhi hlo
  omega

end LearnPg.Wal
