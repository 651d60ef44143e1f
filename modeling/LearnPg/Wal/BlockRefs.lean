import LearnPg.Wal.Bytes

/-! Block references at the front of a record's payload. The backend and the
collector decode them with the same loop; they differ in how a reference's
relation is found and in how a reference is stored, which are the parameters of
the loop here. -/
namespace LearnPg.Wal

structure RelTriple where
  spc : UInt32
  db : UInt32
  rel : UInt32
deriving DecidableEq, Repr

structure RefHeader where
  id : UInt8
  forkFlags : UInt8
  dataLen : UInt16
deriving DecidableEq, Repr

def RefHeader.forkNum (h : RefHeader) : UInt8 := h.forkFlags &&& 0x0F
def RefHeader.hasImage (h : RefHeader) : Bool := h.forkFlags &&& 0x10 != 0
def RefHeader.hasData (h : RefHeader) : Bool := h.forkFlags &&& 0x20 != 0
def RefHeader.willInit (h : RefHeader) : Bool := h.forkFlags &&& 0x40 != 0
def RefHeader.sameRel (h : RefHeader) : Bool := h.forkFlags &&& 0x80 != 0

def endsReferences (id : UInt8) : Bool := id = 254 ∨ id = 255 ∨ id > 32

def readHeader (payload : Bytes) (offset : Nat) : Option RefHeader :=
  if endsReferences (byteAt payload offset) then none
  else some ⟨byteAt payload offset, byteAt payload (offset + 1),
    readLE16 (slice payload (offset + 2) (offset + 4))⟩

/-- Twelve bytes of relation, if they are there. -/
def readRelation (payload : Bytes) (offset : Nat) : Option RelTriple :=
  if offset + 12 > payload.length then none
  else some ⟨readLE32 (slice payload offset (offset + 4)),
    readLE32 (slice payload (offset + 4) (offset + 8)),
    readLE32 (slice payload (offset + 8) (offset + 12))⟩

/-- How one of the two programs finds a reference's relation and stores the
reference. `relation payload offset sameRel lastRel` gives the relation stored,
the number of bytes it took, and the relation later references may repeat. -/
structure RefReader (ρ β : Type) where
  relation : Bytes → Nat → Bool → Option RelTriple → Option (ρ × Nat × Option RelTriple)
  store : RefHeader → Option UInt16 → ρ → UInt32 → β

variable {ρ β : Type} (reader : RefReader ρ β)

/-- Where the relation of a reference starts: behind the eight bytes of image
data, of which the first two are its length. -/
def RefHeader.relationAt (h : RefHeader) (offset : Nat) : Nat :=
  if h.hasImage then offset + 4 + 8 else offset + 4

def RefHeader.imageLen (h : RefHeader) (payload : Bytes) (offset : Nat) : Option UInt16 :=
  if h.hasImage then some (readLE16 (slice payload (offset + 4) (offset + 6))) else none

def RefHeader.dataSize (h : RefHeader) : Nat := if h.hasData then h.dataLen.toNat else 0

/-- One round of the loop: a reference, where the next one starts, and the
relation it may repeat. `none` is any of the loop's breaks. -/
def RefReader.read (payload : Bytes) (offset : Nat) (lastRel : Option RelTriple) :
    Option (β × Nat × Option RelTriple) :=
  match readHeader payload offset with
  | none => none
  | some header =>
    if header.hasImage ∧ offset + 4 + 8 > payload.length then none
    else match reader.relation payload (header.relationAt offset) header.sameRel lastRel with
    | none => none
    | some (relation, size, lastRel) =>
      let blockAt := header.relationAt offset + size
      if blockAt + 4 > payload.length then none
      else if header.hasData ∧ blockAt + 4 + header.dataLen.toNat > payload.length then none
      else
        some (reader.store header (header.imageLen payload offset) relation
          (readLE32 (slice payload blockAt (blockAt + 4))), blockAt + 4 + header.dataSize, lastRel)

theorem RefHeader.lt_relationAt (h : RefHeader) (offset : Nat) : offset < h.relationAt offset := by
  unfold RefHeader.relationAt
  split <;> omega

def RefHeader.ImageFits (h : RefHeader) (payload : Bytes) (offset : Nat) : Prop :=
  h.hasImage → offset + 4 + 8 ≤ payload.length

instance (h : RefHeader) (payload : Bytes) (offset : Nat) :
    Decidable (h.ImageFits payload offset) := inferInstanceAs (Decidable (_ → _))

theorem RefReader.read_eq (payload : Bytes) (offset : Nat) (lastRel : Option RelTriple) :
    reader.read payload offset lastRel =
      (readHeader payload offset).bind fun header =>
        if header.ImageFits payload offset then
          (reader.relation payload (header.relationAt offset) header.sameRel lastRel).bind
            fun (relation, size, lastRel) =>
              let blockAt := header.relationAt offset + size
              if blockAt + 4 + header.dataSize ≤ payload.length then
                some (reader.store header (header.imageLen payload offset) relation
                  (readLE32 (slice payload blockAt (blockAt + 4))),
                  blockAt + 4 + header.dataSize, lastRel)
              else none
        else none := by
  unfold RefReader.read
  cases readHeader payload offset with
  | none => rfl
  | some header =>
    have himage : header.ImageFits payload offset ↔
        ¬ (header.hasImage ∧ offset + 4 + 8 > payload.length) := by
      simp only [RefHeader.ImageFits, not_and, Nat.not_lt, gt_iff_lt]
    simp only [Option.bind_some, himage]
    by_cases h : header.hasImage ∧ offset + 4 + 8 > payload.length
    · rw [if_pos h, if_neg (not_not.mpr h)]
    · rw [if_neg h, if_pos h]
      cases reader.relation payload (header.relationAt offset) header.sameRel lastRel with
      | none => rfl
      | some found =>
        obtain ⟨relation, size, last⟩ := found
        have hsize : header.dataSize = if header.hasData then header.dataLen.toNat else 0 := rfl
        simp only [Option.bind_some]
        by_cases hd : header.hasData <;> grind

theorem RefReader.read_lt {payload : Bytes} {offset next : Nat} {lastRel last : Option RelTriple}
    {reference : β} (h : reader.read payload offset lastRel = some (reference, next, last)) :
    offset < next := by
  rw [read_eq] at h
  obtain ⟨header, -, h⟩ := Option.bind_eq_some_iff.mp h
  split at h
  · obtain ⟨found, -, h⟩ := Option.bind_eq_some_iff.mp h
    have hlt := header.lt_relationAt offset
    dsimp only at h
    split at h
    · simp only [Option.some.injEq, Prod.mk.injEq] at h
      omega
    · contradiction
  · contradiction

theorem RefReader.read_le {payload : Bytes} {offset next : Nat} {lastRel last : Option RelTriple}
    {reference : β} (h : reader.read payload offset lastRel = some (reference, next, last)) :
    next ≤ payload.length := by
  rw [read_eq] at h
  obtain ⟨header, -, h⟩ := Option.bind_eq_some_iff.mp h
  split at h
  · obtain ⟨found, -, h⟩ := Option.bind_eq_some_iff.mp h
    dsimp only at h
    split at h
    · simp only [Option.some.injEq, Prod.mk.injEq] at h
      omega
    · contradiction
  · contradiction

/-- `for offset+4 <= len(payload)`. -/
def RefReader.parse (payload : Bytes) (offset : Nat) (lastRel : Option RelTriple) : List β :=
  if offset + 4 ≤ payload.length then
    match _h : reader.read payload offset lastRel with
    | none => []
    | some (reference, next, lastRel) => reference :: RefReader.parse payload next lastRel
  else []
termination_by payload.length - offset
decreasing_by
  have := RefReader.read_lt reader _h
  omega

theorem RefReader.parse_short {payload : Bytes} {offset : Nat} {lastRel : Option RelTriple}
    (h : payload.length < offset + 4) : reader.parse payload offset lastRel = [] := by
  rw [parse, if_neg (by omega)]

theorem RefReader.parse_stop {payload : Bytes} {offset : Nat} {lastRel : Option RelTriple}
    (h : reader.read payload offset lastRel = none) : reader.parse payload offset lastRel = [] := by
  rw [parse]
  split
  · split
    · rfl
    next heq => rw [h] at heq; contradiction
  · rfl

theorem RefReader.parse_step {payload : Bytes} {offset next : Nat}
    {lastRel last : Option RelTriple} {reference : β} (hroom : offset + 4 ≤ payload.length)
    (h : reader.read payload offset lastRel = some (reference, next, last)) :
    reader.parse payload offset lastRel = reference :: reader.parse payload next last := by
  rw [parse, if_pos hroom]
  split
  next heq => rw [h] at heq; contradiction
  next heq =>
    rw [h] at heq
    cases heq
    rfl

/-! The backend's reader. -/

structure BlockRef where
  id : UInt8
  forkNum : UInt8
  blockNum : UInt32
  hasImage : Bool
  hasData : Bool
  willInit : Bool
  sameRel : Bool
  dataLen : UInt16
  imageLen : UInt16
  relSpcNode : UInt32
  relDbNode : UInt32
  relNode : UInt32
deriving DecidableEq, Repr

/-- `ref.SameRel && lastRel.ok`: without an earlier relation the flag is ignored
and the twelve bytes are read. -/
def backendRefs : RefReader RelTriple BlockRef where
  relation := fun payload offset sameRel lastRel =>
    match sameRel, lastRel with
    | true, some rel => some (rel, 0, lastRel)
    | _, _ => (readRelation payload offset).map fun rel => (rel, 12, some rel)
  store := fun h imageLen rel blockNum =>
    { id := h.id, forkNum := h.forkNum, blockNum, hasImage := h.hasImage, hasData := h.hasData
      willInit := h.willInit, sameRel := h.sameRel, dataLen := h.dataLen
      imageLen := imageLen.getD 0
      relSpcNode := rel.spc, relDbNode := rel.db, relNode := rel.rel }

def parseBlockReferences (payload : Bytes) : List BlockRef := backendRefs.parse payload 0 none

end LearnPg.Wal
