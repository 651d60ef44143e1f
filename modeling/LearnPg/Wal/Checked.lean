import LearnPg.Basis.Faults
import LearnPg.Wal.Scan

/-! The backend's reader with the checks the running program makes: every index and slice
against the length of what it reads, every sum against the size of the type it is computed
in. Where no check fails, what is computed is what the plain definitions say. -/
namespace LearnPg.Wal.Checked
open LearnPg.Basis.Faults

def readLE16 (b : Bytes) : Checked UInt16 := do
  let b0 ← index b 0
  let b1 ← index b 1
  pure (b0.toUInt16 ||| b1.toUInt16 <<< 8)

def readLE32 (b : Bytes) : Checked UInt32 := do
  let b0 ← index b 0
  let b1 ← index b 1
  let b2 ← index b 2
  let b3 ← index b 3
  pure (b0.toUInt32 ||| b1.toUInt32 <<< 8 ||| b2.toUInt32 <<< 16 ||| b3.toUInt32 <<< 24)

def readLE64 (b : Bytes) : Checked UInt64 := do
  let lo ← readLE32 (← cut b 0 4)
  let hi ← readLE32 (← cut b 4 8)
  pure (lo.toUInt64 ||| hi.toUInt64 <<< 32)

section
variable {b : Bytes}

theorem byteAt_ok {i : Nat} (h : i < b.length) : index b i = .ok (byteAt b i) := index_ok h 0

theorem cut_slice {lo hi : Nat} (hlo : lo ≤ hi) (hhi : hi ≤ b.length) :
    cut b lo hi = .ok (slice b lo hi) := Basis.Faults.cut_ok hlo hhi

theorem readLE16_ok (h : 2 ≤ b.length) : readLE16 b = .ok (Wal.readLE16 b) := by
  simp (disch := omega) only [readLE16, byteAt_ok, ok_bind]
  rfl

theorem readLE32_ok (h : 4 ≤ b.length) : readLE32 b = .ok (Wal.readLE32 b) := by
  simp (disch := omega) only [readLE32, byteAt_ok, ok_bind]
  rfl

theorem cut_readLE16 {lo hi : Nat} (hlo : lo + 2 ≤ hi) (hhi : hi ≤ b.length) :
    cut b lo hi >>= readLE16 = .ok (Wal.readLE16 (slice b lo hi)) := by
  rw [cut_slice (by omega) hhi, ok_bind, readLE16_ok (by rw [slice_length]; omega)]

theorem cut_readLE32 {lo hi : Nat} (hlo : lo + 4 ≤ hi) (hhi : hi ≤ b.length) :
    cut b lo hi >>= readLE32 = .ok (Wal.readLE32 (slice b lo hi)) := by
  rw [cut_slice (by omega) hhi, ok_bind, readLE32_ok (by rw [slice_length]; omega)]

theorem readLE64_ok (h : 8 ≤ b.length) : readLE64 b = .ok (Wal.readLE64 b) := by
  unfold readLE64
  rw [← bind_assoc, cut_readLE32 (by omega) (by omega), ok_bind, ← bind_assoc,
    cut_readLE32 (by omega) (by omega)]
  rfl

theorem cut_readLE64 {lo hi : Nat} (hlo : lo + 8 ≤ hi) (hhi : hi ≤ b.length) :
    cut b lo hi >>= readLE64 = .ok (Wal.readLE64 (slice b lo hi)) := by
  rw [cut_slice (by omega) hhi, ok_bind, readLE64_ok (by rw [slice_length]; omega)]

end

/-! Block references. -/

def readRelation (bound : Nat) (payload : Bytes) (offset : Nat) : Checked (Option RelTriple) := do
  fit bound (offset + 12)
  if offset + 12 > payload.length then pure none
  else
    let spc ← readLE32 (← cut payload offset (offset + 4))
    let db ← readLE32 (← cut payload (offset + 4) (offset + 8))
    let rel ← readLE32 (← cut payload (offset + 8) (offset + 12))
    pure (some ⟨spc, db, rel⟩)

theorem readRelation_ok {bound : Nat} {payload : Bytes} {offset : Nat} (h : offset + 12 < bound) :
    readRelation bound payload offset = .ok (Wal.readRelation payload offset) := by
  unfold readRelation Wal.readRelation
  rw [fit_ok h, ok_bind]
  split
  · rfl
  · simp (disch := omega) only [← bind_assoc, cut_readLE32, ok_bind]
    rfl

/-- The loop of `reader` with its checks. Its sums must stay below `bound`. -/
structure RefChecks (ρ β : Type) where
  reader : RefReader ρ β
  bound : Nat
  relation : Bytes → Nat → Bool → Option RelTriple → Checked (Option (ρ × Nat × Option RelTriple))
  relation_ok : ∀ payload offset sameRel lastRel, offset + 12 < bound →
    relation payload offset sameRel lastRel = .ok (reader.relation payload offset sameRel lastRel)
  size_le : ∀ payload offset sameRel lastRel, ∀ found ∈
    reader.relation payload offset sameRel lastRel, found.2.1 ≤ 12

section
variable {ρ β : Type} (checks : RefChecks ρ β)

/-- A round from the relation on, which starts `extra` bytes behind the fixed four; it yields
all the bytes the reference has behind these. -/
def RefChecks.finish (payload : Bytes) (header : RefHeader) (imageLen : Option UInt16)
    (fixedEnd extra : Nat) (lastRel : Option RelTriple) :
    Checked (Option (β × Nat × Option RelTriple)) := do
  match ← checks.relation payload (fixedEnd + extra) header.sameRel lastRel with
  | none => pure none
  | some (relation, size, lastRel) =>
    fit checks.bound (fixedEnd + extra + size + 4)
    if fixedEnd + extra + size + 4 > payload.length then pure none
    else
      let blockNum ← readLE32
        (← cut payload (fixedEnd + extra + size) (fixedEnd + extra + size + 4))
      let reference := checks.reader.store header imageLen relation blockNum
      if header.hasData then
        fit checks.bound (fixedEnd + extra + size + 4 + header.dataLen.toNat)
        if fixedEnd + extra + size + 4 + header.dataLen.toNat > payload.length then pure none
        else pure (some (reference, extra + size + 4 + header.dataLen.toNat, lastRel))
      else pure (some (reference, extra + size + 4, lastRel))

/-- One round of the loop. -/
def RefChecks.round (payload : Bytes) (offset : Nat) (lastRel : Option RelTriple) :
    Checked (Option (β × Nat × Option RelTriple)) := do
  let id ← index payload offset
  if endsReferences id then pure none
  else
    let forkFlags ← index payload (offset + 1)
    let dataLen ← readLE16 (← cut payload (offset + 2) (offset + 4))
    let header : RefHeader := ⟨id, forkFlags, dataLen⟩
    if header.hasImage then
      fit checks.bound (offset + 4 + 8)
      if offset + 4 + 8 > payload.length then pure none
      else
        let imageLen ← readLE16 (← cut payload (offset + 4) (offset + 4 + 2))
        checks.finish payload header (some imageLen) (offset + 4) 8 lastRel
    else checks.finish payload header none (offset + 4) 0 lastRel

def RefChecks.parse (payload : Bytes) (offset : Nat) (lastRel : Option RelTriple) :
    Checked (List β) := do
  fit checks.bound (offset + 4)
  if offset + 4 ≤ payload.length then
    match ← checks.round payload offset lastRel with
    | none => pure []
    | some (reference, extra, lastRel) =>
      let references ← RefChecks.parse payload (offset + 4 + extra) lastRel
      pure (reference :: references)
  else pure []
termination_by payload.length - offset

variable {checks} {payload : Bytes} {lastRel : Option RelTriple}

def endFrom (fixedEnd : Nat) (found : β × Nat × Option RelTriple) : β × Nat × Option RelTriple :=
  (found.1, fixedEnd + found.2.1, found.2.2)

theorem RefChecks.finish_ok (header : RefHeader) (imageLen : Option UInt16) (fixedEnd extra : Nat)
    (hroom : fixedEnd + extra ≤ payload.length) (hbound : payload.length + 2 ^ 17 ≤ checks.bound) :
    ∃ found, checks.finish payload header imageLen fixedEnd extra lastRel = .ok found ∧
      found.map (endFrom fixedEnd) =
        match checks.reader.relation payload (fixedEnd + extra) header.sameRel lastRel with
        | none => none
        | some (relation, size, lastRel) =>
          let blockAt := fixedEnd + extra + size
          if blockAt + 4 > payload.length then none
          else if header.hasData ∧ blockAt + 4 + header.dataLen.toNat > payload.length then none
          else some (checks.reader.store header imageLen relation
            (Wal.readLE32 (slice payload blockAt (blockAt + 4))),
              blockAt + 4 + header.dataSize, lastRel) := by
  have hdata := header.dataLen.toNat_lt
  have hsize := checks.size_le payload (fixedEnd + extra) header.sameRel lastRel
  unfold RefChecks.finish
  rw [checks.relation_ok _ _ _ _ (by omega), ok_bind]
  cases hfound : checks.reader.relation payload (fixedEnd + extra) header.sameRel lastRel with
  | none => exact ⟨none, rfl, rfl⟩
  | some found =>
    obtain ⟨relation, size, last⟩ := found
    have hle : size ≤ 12 := hsize _ hfound
    dsimp only
    rw [fit_ok (by omega), ok_bind]
    by_cases hblock : fixedEnd + extra + size + 4 > payload.length
    · rw [if_pos hblock, if_pos hblock]
      exact ⟨none, rfl, rfl⟩
    · rw [if_neg hblock, if_neg hblock, ← bind_assoc, cut_readLE32 (by omega) (by omega), ok_bind]
      by_cases hhas : header.hasData = true
      · rw [if_pos hhas, fit_ok (by omega), ok_bind, RefHeader.dataSize, if_pos hhas]
        by_cases hover : fixedEnd + extra + size + 4 + header.dataLen.toNat > payload.length
        · rw [if_pos hover, if_pos ⟨hhas, hover⟩]
          exact ⟨none, rfl, rfl⟩
        · rw [if_neg hover, if_neg fun h => hover h.2]
          refine ⟨_, rfl, ?_⟩
          simp only [Option.map_some, endFrom, Nat.add_assoc]
      · rw [if_neg hhas, if_neg fun h => hhas h.1, RefHeader.dataSize, if_neg hhas]
        refine ⟨_, rfl, ?_⟩
        simp only [Option.map_some, endFrom, Nat.add_assoc, Nat.add_zero]

theorem RefChecks.round_ok {offset : Nat} (hroom : offset + 4 ≤ payload.length)
    (hbound : payload.length + 2 ^ 17 ≤ checks.bound) :
    ∃ found, checks.round payload offset lastRel = .ok found ∧
      found.map (endFrom (offset + 4)) = checks.reader.read payload offset lastRel := by
  unfold RefChecks.round RefReader.read readHeader
  rw [byteAt_ok (by omega), ok_bind]
  by_cases hends : endsReferences (byteAt payload offset) = true
  · rw [if_pos hends, if_pos hends]
    exact ⟨none, rfl, rfl⟩
  · rw [if_neg hends, if_neg hends, byteAt_ok (by omega), ok_bind, ← bind_assoc,
      cut_readLE16 (by omega) (by omega), ok_bind]
    generalize (⟨byteAt payload offset, byteAt payload (offset + 1),
      Wal.readLE16 (slice payload (offset + 2) (offset + 4))⟩ : RefHeader) = header
    dsimp only
    by_cases himage : header.hasImage = true
    · rw [if_pos himage, fit_ok (by omega), ok_bind, RefHeader.relationAt, if_pos himage,
        RefHeader.imageLen, if_pos himage]
      by_cases hshort : offset + 4 + 8 > payload.length
      · rw [if_pos hshort, if_pos ⟨himage, hshort⟩]
        exact ⟨none, rfl, rfl⟩
      · rw [if_neg hshort, if_neg fun h => hshort h.2, ← bind_assoc,
          cut_readLE16 (by omega) (by omega), ok_bind]
        exact finish_ok header _ (offset + 4) 8 (by omega) hbound
    · rw [if_neg himage, if_neg fun h => himage h.1, RefHeader.relationAt, if_neg himage,
        RefHeader.imageLen, if_neg himage]
      exact finish_ok header none (offset + 4) 0 (by omega) hbound

/-- The loop makes no fault and decodes the references the plain one decodes. -/
theorem RefChecks.parse_ok {offset : Nat} {lastRel : Option RelTriple}
    (hoffset : offset ≤ payload.length)
    (hbound : payload.length + 2 ^ 17 ≤ checks.bound) :
    checks.parse payload offset lastRel = .ok (checks.reader.parse payload offset lastRel) := by
  rw [RefChecks.parse, fit_ok (by omega), ok_bind]
  by_cases hroom : offset + 4 ≤ payload.length
  · obtain ⟨found, hround, hread⟩ := @round_ok _ _ checks payload lastRel offset hroom hbound
    rw [if_pos hroom, hround, ok_bind]
    cases found with
    | none =>
      rw [RefReader.parse_stop _ hread.symm]
      rfl
    | some found =>
      obtain ⟨reference, extra, last⟩ := found
      have hle := RefReader.read_le _ hread.symm
      have hlt := RefReader.read_lt _ hread.symm
      rw [RefReader.parse_step _ hroom hread.symm]
      dsimp only [endFrom] at hle hlt ⊢
      rw [parse_ok hle hbound]
      rfl
  · rw [if_neg hroom, RefReader.parse_short _ (by omega)]
    rfl
termination_by payload.length - offset

end

end LearnPg.Wal.Checked
