import LearnPg.Clog.Reader

/-! Parents of subtransactions: where the reader looks for one, and where it is stored. -/
namespace LearnPg.Clog
open Wal LearnPg.Basis

structure Slot where
  path : Path
  offset : Nat
deriving DecidableEq

def Slot.Apart (s t : Slot) : Prop :=
  s.path = t.path → s.offset + 4 ≤ t.offset ∨ t.offset + 4 ≤ s.offset

/-- Open, seek and `binary.Read`. -/
def readSlot (fs : FileSystem) (s : Slot) : Except String UInt32 :=
  match fs.file s.path with
  | none => .error "cannot open"
  | some content =>
    let data := slice content s.offset (s.offset + 4)
    if data.length = 0 then .error "EOF"
    else if data.length < 4 then .error "unexpected EOF"
    else .ok (readLE32 data)

def subtransDir (dataDir : Path) : Path := dataDir ++ ["pg_subtrans"]

def readAt (dataDir : Path) (subxid : UInt32) : Slot :=
  let pageNum := subxid / 8192
  let offset := subxid % 8192
  ⟨subtransDir dataDir ++ [segmentName pageNum], offset.toNat * 4⟩

def getParent (fs : FileSystem) (dataDir : Path) (subxid : UInt32) : Except String UInt32 :=
  readSlot fs (readAt dataDir subxid)

/-! Where a parent is stored: entries of four bytes on the pages of segment files. -/

def entrySize : Nat := 4
def entriesPerPage : Nat := pageSize / entrySize
def entriesPerSegment : Nat := entriesPerPage * pagesPerSegment

def storedAt (dataDir : Path) (xid : UInt32) : Slot :=
  ⟨subtransDir dataDir ++ [segmentName (xid / UInt32.ofNat entriesPerSegment)],
    xid.toNat / entriesPerPage % pagesPerSegment * pageSize +
      xid.toNat % entriesPerPage * entrySize⟩

theorem segmentName_injective : Function.Injective segmentName := by
  intro a b h
  have hchars := String.ofList_injective h
  rw [← UInt32.toNat_inj, ← HexText.value_padded 4 a.toNat, hchars, HexText.value_padded]

section

variable (dataDir : Path) (xid : UInt32)

theorem readAt_offset : (readAt dataDir xid).offset = xid.toNat % 8192 * 4 := by
  unfold readAt
  dsimp only
  rw [UInt32.toNat_mod]
  rfl

theorem path_eq_iff {a b : UInt32} : subtransDir dataDir ++ [segmentName a] =
    subtransDir dataDir ++ [segmentName b] ↔ a = b := by
  rw [List.append_cancel_left_eq, List.cons.injEq, and_iff_left rfl, segmentName_injective.eq_iff]

theorem path_right_iff : (readAt dataDir xid).path = (storedAt dataDir xid).path ↔ xid < 8192 := by
  have hbound := xid.toNat_lt
  unfold readAt storedAt
  rw [path_eq_iff, ← UInt32.toNat_inj, UInt32.toNat_div, UInt32.toNat_div, UInt32.lt_iff_toNat_lt]
  show xid.toNat / 8192 = xid.toNat / 65536 ↔ xid.toNat < 8192
  omega

theorem readAt_right (h : xid < 8192) : readAt dataDir xid = storedAt dataDir xid := by
  have hpath := (path_right_iff dataDir xid).mpr h
  have hsmall : xid.toNat < 8192 := UInt32.lt_iff_toNat_lt.mp h
  have hoffset : (readAt dataDir xid).offset = (storedAt dataDir xid).offset := by
    rw [readAt_offset]
    show xid.toNat % 8192 * 4 = xid.toNat / 2048 % 32 * 8192 + xid.toNat % 2048 * 4
    omega
  cases hread : readAt dataDir xid
  cases hstored : storedAt dataDir xid
  rw [hread, hstored] at hpath hoffset
  cases hpath
  cases hoffset
  rfl

end

def onlySlot (s : Slot) : FileSystem where
  stat := fun _ => true
  file := fun path => if path = s.path then some (List.replicate (s.offset + 4) 0) else none

theorem onlySlot_file (s : Slot) (path : Path) : (onlySlot s).file path =
    if path = s.path then some (List.replicate (s.offset + 4) 0) else none := rfl

theorem readSlot_onlySlot (s : Slot) : ∃ parent, readSlot (onlySlot s) s = .ok parent := by
  have hlength : (slice (List.replicate (s.offset + 4) (0 : UInt8)) s.offset
      (s.offset + 4)).length = 4 := by simp
  refine ⟨readLE32 (slice (List.replicate (s.offset + 4) 0) s.offset (s.offset + 4)), ?_⟩
  rw [readSlot, onlySlot_file, if_pos rfl]
  dsimp only
  rw [if_neg (by omega), if_neg (by omega)]

theorem readSlot_other {s t : Slot} (h : s.path ≠ t.path) :
    readSlot (onlySlot t) s = .error "cannot open" := by
  rw [readSlot, onlySlot_file, if_neg h]

theorem getParent_right_iff (xid : UInt32) :
    (∀ fs dataDir, getParent fs dataDir xid = readSlot fs (storedAt dataDir xid)) ↔
      xid < 8192 := by
  constructor
  · intro h
    by_contra hlarge
    have hpath := mt (path_right_iff ["data"] xid).mp hlarge
    have hread := h (onlySlot (storedAt ["data"] xid)) ["data"]
    obtain ⟨parent, hparent⟩ := readSlot_onlySlot (storedAt ["data"] xid)
    rw [getParent, readSlot_other hpath, hparent] at hread
    contradiction
  · intro hsmall fs dataDir
    rw [getParent, readAt_right dataDir xid hsmall]

theorem readAt_apart (dataDir : Path) {a b : UInt32} (h : a ≠ b) :
    (readAt dataDir a).Apart (readAt dataDir b) := by
  intro hpath
  have hpage : a / 8192 = b / 8192 := (path_eq_iff dataDir).mp hpath
  have hpage : a.toNat / 8192 = b.toNat / 8192 := by
    have := congrArg UInt32.toNat hpage
    rwa [UInt32.toNat_div, UInt32.toNat_div] at this
  have hne : a.toNat ≠ b.toNat := fun hsame => h (UInt32.toNat_inj.mp hsame)
  rw [readAt_offset, readAt_offset]
  omega

/-- The reader finds the parent of an xid exactly if the xid is below 8192; it looks for
no two at one place. -/
theorem getParent_addresses (xid : UInt32) :
    ((∀ fs dataDir, getParent fs dataDir xid = readSlot fs (storedAt dataDir xid)) ↔
      xid < 8192) ∧
    ∀ dataDir other, xid ≠ other → (readAt dataDir xid).Apart (readAt dataDir other) :=
  ⟨getParent_right_iff xid, fun dataDir _ => readAt_apart dataDir⟩

/-- The parent of xid 8192 is in the first file, the reader opens the second. -/
theorem getParent_wrong_file : ¬ ∀ xid fs dataDir,
    getParent fs dataDir xid = readSlot fs (storedAt dataDir xid) := by
  intro h
  exact absurd ((getParent_right_iff 8192).mp (h 8192)) (by decide)

end LearnPg.Clog
