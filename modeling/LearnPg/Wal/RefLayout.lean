import LearnPg.Collector.ProbeEvent
import LearnPg.Wal.BlockRefs

/-! Block references in the layout that the reader expects, and what it reads back from
them. A reference that repeats the last relation does not store it. -/
namespace LearnPg.Wal
open Collector LearnPg.Basis.StructLayout

def BlockRef.relation (r : BlockRef) : RelTriple := ⟨r.relSpcNode, r.relDbNode, r.relNode⟩

def flag (set : Bool) (bit : UInt8) : UInt8 := if set then bit else 0

def BlockRef.forkFlags (r : BlockRef) : UInt8 :=
  r.forkNum ||| flag r.hasImage 0x10 ||| flag r.hasData 0x20 ||| flag r.willInit 0x40 |||
    flag r.sameRel 0x80

def BlockRef.header (r : BlockRef) : RefHeader := ⟨r.id, r.forkFlags, r.dataLen⟩

/-- A reference and the bytes stored with it that are not decoded: six behind the length
of its image, and its data. There are four bits for the fork, and no place for the
length of an image that is not there. -/
structure StoredRef where
  ref : BlockRef
  imageInfo : Bytes
  data : Bytes
  id_le : ref.id ≤ 32
  forkNum_lt : ref.forkNum < 16
  imageLen_eq : ref.hasImage = false → ref.imageLen = 0
  length_imageInfo : imageInfo.length = 6
  length_data : ref.hasData = true → data.length = ref.dataLen.toNat

def StoredRef.imageBytes (e : StoredRef) : Bytes :=
  if e.ref.hasImage then storeLE16 e.ref.imageLen ++ e.imageInfo else []

def RelTriple.bytes (rel : RelTriple) : Bytes :=
  storeLE32 rel.spc ++ (storeLE32 rel.db ++ storeLE32 rel.rel)

def StoredRef.relationBytes (e : StoredRef) : Bytes :=
  if e.ref.sameRel then [] else e.ref.relation.bytes

def StoredRef.dataBytes (e : StoredRef) : Bytes := if e.ref.hasData then e.data else []

def RefHeader.bytes (h : RefHeader) : Bytes := h.id :: h.forkFlags :: storeLE16 h.dataLen

def StoredRef.bytes (e : StoredRef) : Bytes :=
  e.ref.header.bytes ++ (e.imageBytes ++ (e.relationBytes ++
    (storeLE32 e.ref.blockNum ++ e.dataBytes)))

def BlockRef.lastRel (r : BlockRef) (lastRel : Option RelTriple) : Option RelTriple :=
  if r.sameRel then lastRel else some r.relation

/-- A relation is left out only where it is the last one stored. -/
def Repeats : Option RelTriple → List StoredRef → Prop
  | _, [] => True
  | lastRel, e :: es =>
    (e.ref.sameRel = true → lastRel = some e.ref.relation) ∧ Repeats (e.ref.lastRel lastRel) es

/-- What may follow the references. -/
def EndsList (tail : Bytes) : Prop := tail.length < 4 ∨ ∃ b ∈ tail.head?, 32 < b

theorem readLE16_storeLE16 (v : UInt16) : readLE16 (storeLE16 v) = v := by
  rw [← UInt16.toNat_inj]
  apply Nat.eq_of_testBit_eq
  intro i
  have hbound : 16 ≤ i → v.toNat.testBit i = false := fun h =>
    Nat.testBit_lt_two_pow (Nat.lt_of_lt_of_le v.toNat_lt (Nat.pow_le_pow_right (by decide) h))
  simp only [readLE16, storeLE16, byteAt, List.getD_cons_zero, List.getD_cons_succ,
    UInt16.toNat_or, UInt16.toNat_shiftLeft, UInt8.toNat_toUInt16, UInt16.toNat_toUInt8,
    UInt16.toNat_shiftRight, Nat.testBit_or, Nat.testBit_mod_two_pow, Nat.testBit_shiftLeft,
    Nat.testBit_shiftRight, UInt16.reduceToNat, Nat.reduceMod]
  grind

theorem flags_apart : ∀ (fork : Fin 16) (image data init same : Bool),
    let flags := UInt8.ofNat fork ||| flag image 0x10 ||| flag data 0x20 ||| flag init 0x40 |||
      flag same 0x80
    flags &&& 0x0F = UInt8.ofNat fork ∧ (flags &&& 0x10 != 0) = image ∧
      (flags &&& 0x20 != 0) = data ∧ (flags &&& 0x40 != 0) = init ∧
      (flags &&& 0x80 != 0) = same := by
  decide

section

variable (e : StoredRef)

theorem StoredRef.header_flags : e.ref.header.forkNum = e.ref.forkNum ∧
    e.ref.header.hasImage = e.ref.hasImage ∧ e.ref.header.hasData = e.ref.hasData ∧
    e.ref.header.willInit = e.ref.willInit ∧ e.ref.header.sameRel = e.ref.sameRel := by
  have hfork : e.ref.forkNum.toNat < 16 := UInt8.lt_iff_toNat_lt.mp e.forkNum_lt
  have happart := flags_apart ⟨e.ref.forkNum.toNat, hfork⟩ e.ref.hasImage e.ref.hasData
    e.ref.willInit e.ref.sameRel
  rw [UInt8.ofNat_toNat] at happart
  exact happart

theorem StoredRef.endsReferences_id : endsReferences e.ref.id = false := by
  have hid : e.ref.id.toNat ≤ 32 := UInt8.le_iff_toNat_le.mp e.id_le
  unfold endsReferences
  simp only [decide_eq_false_iff_not, not_or, gt_iff_lt, UInt8.lt_iff_toNat_lt,
    ← UInt8.toNat_inj, UInt8.reduceToNat]
  omega

theorem StoredRef.length_imageBytes :
    e.imageBytes.length = if e.ref.hasImage then 8 else 0 := by
  unfold StoredRef.imageBytes
  cases e.ref.hasImage with
  | false => rfl
  | true => simp [storeLE16, e.length_imageInfo]

theorem StoredRef.length_relationBytes :
    e.relationBytes.length = if e.ref.sameRel then 0 else 12 := by
  unfold StoredRef.relationBytes
  cases e.ref.sameRel <;> rfl

theorem StoredRef.relationAt_header (offset : Nat) :
    e.ref.header.relationAt offset = offset + 4 + e.imageBytes.length := by
  unfold RefHeader.relationAt
  rw [e.header_flags.2.1, e.length_imageBytes]
  cases e.ref.hasImage <;> rfl

theorem StoredRef.dataSize_header : e.ref.header.dataSize = e.dataBytes.length := by
  unfold RefHeader.dataSize StoredRef.dataBytes
  rw [e.header_flags.2.2.1]
  cases hdata : e.ref.hasData with
  | false => rfl
  | true => exact (e.length_data hdata).symm

theorem StoredRef.length_bytes : e.bytes.length =
    4 + (e.imageBytes.length + (e.relationBytes.length + (4 + e.dataBytes.length))) := by
  simp [StoredRef.bytes, RefHeader.bytes, storeLE16, storeLE32]
  omega

variable {e} {payload : Bytes} {offset : Nat} {lastRel : Option RelTriple}

/-! Where the parts of a reference lie. -/

theorem StoredRef.image_at (h : HasAt payload offset e.bytes) :
    HasAt payload (offset + 4) e.imageBytes :=
  h.right.left

theorem StoredRef.relation_at (h : HasAt payload offset e.bytes) :
    HasAt payload (e.ref.header.relationAt offset) e.relationBytes := by
  rw [e.relationAt_header]
  exact h.right.right.left

theorem StoredRef.blockNum_at (h : HasAt payload offset e.bytes) :
    HasAt payload (e.ref.header.relationAt offset + e.relationBytes.length)
      (storeLE32 e.ref.blockNum) := by
  rw [e.relationAt_header]
  exact h.right.right.right.left

/-! What is read from them. -/

theorem byteAt_hasAt {b : UInt8} (h : HasAt payload offset [b]) : byteAt payload offset = b := by
  unfold HasAt at h
  have hhead := congrArg (byteAt · 0) h
  simpa [byteAt] using hhead

theorem StoredRef.readHeader_stored (h : HasAt payload offset e.bytes) :
    readHeader payload offset = some e.ref.header := by
  have hat : HasAt payload offset ([e.ref.id] ++ ([e.ref.forkFlags] ++ storeLE16 e.ref.dataLen)) :=
    h.left
  have hflags : byteAt payload (offset + 1) = e.ref.forkFlags := byteAt_hasAt hat.right.left
  have hdata : slice payload (offset + 2) (offset + 4) = storeLE16 e.ref.dataLen :=
    slice_of_hasAt hat.right.right rfl
  rw [readHeader, byteAt_hasAt hat.left, e.endsReferences_id, hflags, hdata, readLE16_storeLE16]
  rfl

theorem StoredRef.imageFits_stored (h : HasAt payload offset e.bytes) :
    e.ref.header.ImageFits payload offset := by
  have hle := h.le (List.cons_ne_nil _ _)
  rw [e.length_bytes, e.length_imageBytes] at hle
  intro himage
  rw [e.header_flags.2.1] at himage
  rw [if_pos himage] at hle
  omega

theorem StoredRef.imageLen_stored (h : HasAt payload offset e.bytes) :
    (e.ref.header.imageLen payload offset).getD 0 = e.ref.imageLen := by
  unfold RefHeader.imageLen
  rw [e.header_flags.2.1]
  cases himage : e.ref.hasImage with
  | false => exact (e.imageLen_eq himage).symm
  | true =>
    have hat := image_at h
    unfold StoredRef.imageBytes at hat
    rw [himage, if_pos rfl] at hat
    have hlen : slice payload (offset + 4) (offset + 6) = storeLE16 e.ref.imageLen :=
      slice_of_hasAt hat.left rfl
    rw [if_pos rfl, Option.getD_some, hlen, readLE16_storeLE16]

theorem readRelation_bytes {rel : RelTriple} (h : HasAt payload offset rel.bytes) :
    readRelation payload offset = some rel := by
  have hle : offset + 12 ≤ payload.length := h.le (List.cons_ne_nil _ _)
  have hspc : slice payload offset (offset + 4) = storeLE32 rel.spc := slice_of_hasAt h.left rfl
  have hdb : slice payload (offset + 4) (offset + 8) = storeLE32 rel.db :=
    slice_of_hasAt h.right.left rfl
  have hrel : slice payload (offset + 8) (offset + 12) = storeLE32 rel.rel :=
    slice_of_hasAt h.right.right rfl
  rw [readRelation, if_neg (Nat.not_lt.mpr hle), hspc, hdb, hrel, readLE32_storeLE32,
    readLE32_storeLE32, readLE32_storeLE32]

theorem StoredRef.relation_stored (h : HasAt payload offset e.bytes)
    (hrepeats : e.ref.sameRel = true → lastRel = some e.ref.relation) :
    backendRefs.relation payload (e.ref.header.relationAt offset) e.ref.header.sameRel lastRel =
      some (e.ref.relation, e.relationBytes.length, e.ref.lastRel lastRel) := by
  have hat := relation_at h
  rw [e.length_relationBytes, e.header_flags.2.2.2.2]
  unfold StoredRef.relationBytes at hat
  unfold BlockRef.lastRel
  cases hsame : e.ref.sameRel with
  | true =>
    rw [hrepeats hsame]
    rfl
  | false =>
    rw [hsame, if_neg Bool.false_ne_true] at hat
    simp [backendRefs, readRelation_bytes hat]

theorem StoredRef.read_stored (h : HasAt payload offset e.bytes)
    (hrepeats : e.ref.sameRel = true → lastRel = some e.ref.relation) :
    backendRefs.read payload offset lastRel =
      some (e.ref, offset + e.bytes.length, e.ref.lastRel lastRel) := by
  have hle := h.le (List.cons_ne_nil _ _)
  have hend : e.ref.header.relationAt offset + e.relationBytes.length + 4 +
      e.ref.header.dataSize = offset + e.bytes.length := by
    rw [e.relationAt_header, e.dataSize_header, e.length_bytes]
    omega
  have hblock : slice payload (e.ref.header.relationAt offset + e.relationBytes.length)
      (e.ref.header.relationAt offset + e.relationBytes.length + 4) =
        storeLE32 e.ref.blockNum :=
    slice_of_hasAt (blockNum_at h) rfl
  obtain ⟨hfork, himage, hdata, hinit, hsame⟩ := e.header_flags
  rw [RefReader.read_eq, readHeader_stored h, Option.bind_some, if_pos (imageFits_stored h),
    relation_stored h hrepeats, Option.bind_some]
  dsimp only
  rw [hend, if_pos hle, hblock, readLE32_storeLE32]
  simp only [backendRefs, hfork, himage, hdata, hinit, hsame, imageLen_stored h]
  rfl

end

theorem parse_tail {tail : Bytes} (htail : EndsList tail) (before : Bytes)
    (lastRel : Option RelTriple) :
    backendRefs.parse (before ++ tail) before.length lastRel = [] := by
  obtain hshort | ⟨b, hb, hlarge⟩ := htail
  · apply RefReader.parse_short
    rw [List.length_append]
    omega
  · apply RefReader.parse_stop
    obtain ⟨rest, rfl⟩ := List.head?_eq_some_iff.mp hb
    have hends : endsReferences (byteAt (before ++ b :: rest) before.length) = true := by
      simp [endsReferences, byteAt, hlarge]
    rw [RefReader.read_eq, readHeader, if_pos hends, Option.bind_none]

/-- The loop over stored references, from any of them on. -/
theorem parse_stored {tail : Bytes} (htail : EndsList tail) (es : List StoredRef)
    (before : Bytes) {lastRel : Option RelTriple} (h : Repeats lastRel es) :
    backendRefs.parse (before ++ (es.flatMap StoredRef.bytes ++ tail)) before.length lastRel =
      es.map StoredRef.ref := by
  induction es generalizing before lastRel with
  | nil => exact parse_tail htail before lastRel
  | cons e es ih =>
    have hat : HasAt (before ++ (e.bytes ++ (es.flatMap StoredRef.bytes ++ tail))) before.length
        e.bytes := hasAt_append _ _ _
    have hroom := hat.le (List.cons_ne_nil _ _)
    rw [e.length_bytes] at hroom
    have hrest := ih (before ++ e.bytes) h.2
    rw [List.length_append, List.append_assoc] at hrest
    rw [List.flatMap_cons, List.append_assoc, List.map_cons,
      RefReader.parse_step _ (by omega) (StoredRef.read_stored hat h.1), hrest]

/-- The reader gives back the references that were stored, and no others. -/
theorem parseBlockReferences_stored (es : List StoredRef) (h : Repeats none es) {tail : Bytes}
    (htail : EndsList tail) :
    parseBlockReferences (es.flatMap StoredRef.bytes ++ tail) = es.map StoredRef.ref :=
  parse_stored htail es [] h

/-- With an image and data, then a second block of the same relation. -/
def storedPair : List StoredRef :=
  [⟨⟨0, 1, 42, true, true, false, false, 2, 8192, 1663, 5, 16384⟩, [0, 0, 1, 0, 0, 0], [9, 8],
      by decide, by decide, by decide, rfl, fun _ => rfl⟩,
    ⟨⟨32, 15, 43, false, false, true, true, 7, 0, 1663, 5, 16384⟩, [0, 0, 0, 0, 0, 0], [],
      by decide, by decide, by decide, rfl, nofun⟩]

theorem parseBlockReferences_stored_pair :
    parseBlockReferences (storedPair.flatMap StoredRef.bytes ++ [255, 3, 0, 0, 0, 0]) =
      storedPair.map StoredRef.ref :=
  parseBlockReferences_stored storedPair ⟨nofun, fun _ => rfl, trivial⟩
    (.inr ⟨255, rfl, by decide⟩)

end LearnPg.Wal
