import LearnPg.Wal.BlockRefs
import Mathlib.Data.List.Forall2

/-! The collector's block references, and where they agree with the backend's.
Both loops are the same from the first reference that stores a relation on, so
only a payload that opens with a same-relation reference can tell them apart. -/
namespace LearnPg.Collector
open Wal

structure WalBlockRef where
  id : UInt8
  forkNum : UInt8
  blockNum : UInt32
  hasImage : Bool
  hasData : Bool
  willInit : Bool
  sameRel : Bool
  dataLen : UInt16
  imageLen : Option UInt16
  relSpcNode : Option UInt32
  relDbNode : Option UInt32
  relNode : Option UInt32
deriving DecidableEq, Repr

/-- `if block.same_rel`: without an earlier relation nothing is read and nothing
is stored. -/
def collectorRefs : RefReader (Option RelTriple) WalBlockRef where
  relation := fun payload offset sameRel lastRel =>
    if sameRel then some (lastRel, 0, lastRel)
    else (readRelation payload offset).map fun rel => (some rel, 12, some rel)
  store := fun h imageLen rel blockNum =>
    { id := h.id, forkNum := h.forkNum, blockNum, hasImage := h.hasImage, hasData := h.hasData
      willInit := h.willInit, sameRel := h.sameRel, dataLen := h.dataLen, imageLen
      relSpcNode := rel.map RelTriple.spc, relDbNode := rel.map RelTriple.db
      relNode := rel.map RelTriple.rel }

def parseBlockRefs (payload : Bytes) : List WalBlockRef := collectorRefs.parse payload 0 none

/-- Field by field, an absent value on the collector's side counting as zero. -/
structure SameRef (backend : BlockRef) (collector : WalBlockRef) : Prop where
  id : backend.id = collector.id
  forkNum : backend.forkNum = collector.forkNum
  blockNum : backend.blockNum = collector.blockNum
  hasImage : backend.hasImage = collector.hasImage
  hasData : backend.hasData = collector.hasData
  willInit : backend.willInit = collector.willInit
  sameRel : backend.sameRel = collector.sameRel
  dataLen : backend.dataLen = collector.dataLen
  imageLen : backend.imageLen = collector.imageLen.getD 0
  relSpcNode : backend.relSpcNode = collector.relSpcNode.getD 0
  relDbNode : backend.relDbNode = collector.relDbNode.getD 0
  relNode : backend.relNode = collector.relNode.getD 0

def SameRefs (payload : Bytes) : Prop :=
  List.Forall₂ SameRef (parseBlockReferences payload) (parseBlockRefs payload)

theorem store_same (h : RefHeader) (imageLen : Option UInt16) (rel : RelTriple)
    (blockNum : UInt32) :
    SameRef (backendRefs.store h imageLen rel blockNum)
      (collectorRefs.store h imageLen (some rel) blockNum) := by
  constructor <;> rfl

theorem relation_same (payload : Bytes) (offset : Nat) (sameRel : Bool) (lastRel : Option RelTriple)
    (h : sameRel = true → lastRel.isSome) :
    ∃ found : Option (RelTriple × Nat),
      backendRefs.relation payload offset sameRel lastRel =
        found.map (fun f => (f.1, f.2, some f.1)) ∧
      collectorRefs.relation payload offset sameRel lastRel =
        found.map (fun f => (some f.1, f.2, some f.1)) := by
  cases sameRel with
  | true =>
    obtain ⟨rel, rfl⟩ := Option.isSome_iff_exists.mp (h rfl)
    exact ⟨some (rel, 0), rfl, rfl⟩
  | false =>
    refine ⟨(readRelation payload offset).map fun rel => (rel, 12), ?_, ?_⟩
    · simp [backendRefs, Function.comp_def]
    · simp [collectorRefs, Function.comp_def]

/-- What one round of both loops yields. -/
def SameRound : Option (BlockRef × Nat × Option RelTriple) →
    Option (WalBlockRef × Nat × Option RelTriple) → Prop
  | none, none => True
  | some (b, next, last), some (c, next', last') =>
      SameRef b c ∧ next = next' ∧ last = last' ∧ last.isSome
  | _, _ => False

theorem read_same (payload : Bytes) (offset : Nat) (lastRel : Option RelTriple)
    (h : ∀ header ∈ readHeader payload offset, header.sameRel = true → lastRel.isSome) :
    SameRound (backendRefs.read payload offset lastRel)
      (collectorRefs.read payload offset lastRel) := by
  rw [RefReader.read_eq, RefReader.read_eq]
  cases hheader : readHeader payload offset with
  | none => trivial
  | some header =>
    obtain ⟨found, hb, hc⟩ := relation_same payload (header.relationAt offset) header.sameRel
      lastRel (h header hheader)
    simp only [Option.bind_some]
    by_cases himage : header.ImageFits payload offset
    · rw [if_pos himage, if_pos himage, hb, hc]
      cases found with
      | none => trivial
      | some found =>
        simp only [Option.map_some, Option.bind_some]
        split
        · exact ⟨store_same .., rfl, rfl, rfl⟩
        · trivial
    · rw [if_neg himage, if_neg himage]
      trivial

theorem parse_same_of_round {payload : Bytes} {offset : Nat} {lastRel : Option RelTriple}
    (hround : SameRound (backendRefs.read payload offset lastRel)
      (collectorRefs.read payload offset lastRel))
    (hnext : ∀ next last, offset < next → last.isSome →
      List.Forall₂ SameRef (backendRefs.parse payload next last)
        (collectorRefs.parse payload next last)) :
    List.Forall₂ SameRef (backendRefs.parse payload offset lastRel)
      (collectorRefs.parse payload offset lastRel) := by
  by_cases hroom : offset + 4 ≤ payload.length
  · cases hb : backendRefs.read payload offset lastRel with
    | none =>
      cases hc : collectorRefs.read payload offset lastRel with
      | none =>
        rw [RefReader.parse_stop _ hb, RefReader.parse_stop _ hc]
        exact .nil
      | some c => rw [hb, hc] at hround; exact hround.elim
    | some b =>
      cases hc : collectorRefs.read payload offset lastRel with
      | none => rw [hb, hc] at hround; exact hround.elim
      | some c =>
        obtain ⟨b, next, last⟩ := b
        obtain ⟨c, next', last'⟩ := c
        rw [hb, hc] at hround
        obtain ⟨hsame, rfl, rfl, hlast⟩ := hround
        rw [RefReader.parse_step _ hroom hb, RefReader.parse_step _ hroom hc]
        exact .cons hsame (hnext next last (RefReader.read_lt _ hb) hlast)
  · rw [RefReader.parse_short _ (by omega), RefReader.parse_short _ (by omega)]
    exact .nil

/-- Once a relation is known the loops never part again. -/
theorem parse_same {payload : Bytes} {offset : Nat} {lastRel : Option RelTriple}
    (h : lastRel.isSome) :
    List.Forall₂ SameRef (backendRefs.parse payload offset lastRel)
      (collectorRefs.parse payload offset lastRel) := by
  by_cases hroom : offset + 4 ≤ payload.length
  · exact parse_same_of_round (read_same payload offset lastRel fun _ _ _ => h)
      fun next last _ hlast => parse_same hlast
  · rw [RefReader.parse_short _ (by omega), RefReader.parse_short _ (by omega)]
    exact .nil
termination_by payload.length - offset

/-! Payloads that open with a same-relation reference. -/

/-- The first reference carries the same-relation flag, and its image data, its
block number right behind them and its data all lie inside the payload. -/
def OpensWithSameRel (payload : Bytes) : Prop :=
  4 ≤ payload.length ∧ ∃ header ∈ readHeader payload 0, header.sameRel = true ∧
    header.ImageFits payload 0 ∧ header.relationAt 0 + 4 + header.dataSize ≤ payload.length

instance (payload : Bytes) : Decidable (OpensWithSameRel payload) :=
  inferInstanceAs (Decidable (_ ∧ _))

/-- The relation and the block number the backend reads there are all zero. -/
def OpensWithZeros (payload : Bytes) : Prop :=
  ∃ header ∈ readHeader payload 0,
    readRelation payload (header.relationAt 0) = some ⟨0, 0, 0⟩ ∧
      readLE32 (slice payload (header.relationAt 0 + 12) (header.relationAt 0 + 16)) = 0

instance (payload : Bytes) : Decidable (OpensWithZeros payload) :=
  inferInstanceAs (Decidable (∃ header ∈ readHeader payload 0, _))

theorem read_both_none {payload : Bytes} {header : RefHeader}
    (hheader : readHeader payload 0 = some header) (hsame : header.sameRel = true)
    (h : ¬ (header.ImageFits payload 0 ∧
      header.relationAt 0 + 4 + header.dataSize ≤ payload.length)) :
    backendRefs.read payload 0 none = none ∧ collectorRefs.read payload 0 none = none := by
  rw [RefReader.read_eq, RefReader.read_eq, hheader]
  simp only [Option.bind_some]
  by_cases himage : header.ImageFits payload 0
  · have hshort : ¬ header.relationAt 0 + 4 + header.dataSize ≤ payload.length :=
      fun hfit => h ⟨himage, hfit⟩
    rw [if_pos himage, if_pos himage, hsame]
    constructor
    · simp only [backendRefs, readRelation]
      split
      · rfl
      · simp only [Option.map_some, Option.bind_some]
        rw [if_neg (by omega)]
    · simp only [collectorRefs, if_true, Option.bind_some]
      rw [if_neg (by omega)]
  · rw [if_neg himage, if_neg himage]
    exact ⟨rfl, rfl⟩

theorem sameRefs_of_not_opens {payload : Bytes} (h : ¬ OpensWithSameRel payload) :
    SameRefs payload := by
  unfold SameRefs parseBlockReferences parseBlockRefs
  by_cases hroom : 0 + 4 ≤ payload.length
  · refine parse_same_of_round ?_ fun next last _ hlast => parse_same hlast
    by_cases hflag : ∃ header ∈ readHeader payload 0, header.sameRel = true
    · obtain ⟨header, hheader, hsame⟩ := hflag
      have hfails : ¬ (header.ImageFits payload 0 ∧
          header.relationAt 0 + 4 + header.dataSize ≤ payload.length) :=
        fun hfit => h ⟨by omega, header, hheader, hsame, hfit⟩
      obtain ⟨hb, hc⟩ := read_both_none hheader hsame hfails
      rw [hb, hc]
      trivial
    · exact read_same payload 0 none fun header hheader hsame =>
        absurd ⟨header, hheader, hsame⟩ hflag
  · rw [RefReader.parse_short _ (by omega), RefReader.parse_short _ (by omega)]
    exact .nil

/-- The collector's first reference has no relation and takes its block number
from where the backend reads the relation, so agreement forces zeros. -/
theorem opensWithZeros_of_sameRefs {payload : Bytes} (h : OpensWithSameRel payload)
    (hsame : SameRefs payload) : OpensWithZeros payload := by
  obtain ⟨hroom, header, hheader, hflag, himage, hfit⟩ := h
  have hc : collectorRefs.read payload 0 none =
      some (collectorRefs.store header (header.imageLen payload 0) none
        (readLE32 (slice payload (header.relationAt 0) (header.relationAt 0 + 4))),
        header.relationAt 0 + 4 + header.dataSize, none) := by
    rw [RefReader.read_eq, hheader]
    simp only [Option.bind_some]
    rw [if_pos himage, hflag]
    simp only [collectorRefs, if_true, Option.bind_some, Nat.add_zero]
    rw [if_pos hfit]
  have hcparse := RefReader.parse_step _ (by omega) hc
  rw [SameRefs, parseBlockReferences, parseBlockRefs, hcparse] at hsame
  cases hb : backendRefs.read payload 0 none with
  | none =>
    rw [RefReader.parse_stop _ hb] at hsame
    cases hsame
  | some found =>
    obtain ⟨reference, next, last⟩ := found
    rw [RefReader.parse_step _ (by omega) hb] at hsame
    obtain ⟨hfirst, -⟩ := List.forall₂_cons.mp hsame
    rw [RefReader.read_eq, hheader] at hb
    simp only [Option.bind_some] at hb
    rw [if_pos himage, hflag] at hb
    simp only [backendRefs, Option.bind_map] at hb
    obtain ⟨rel, hrel, hb⟩ := Option.bind_eq_some_iff.mp hb
    simp only [Function.comp_apply] at hb
    split at hb
    · simp only [Option.some.injEq, Prod.mk.injEq] at hb
      obtain ⟨rfl, -, -⟩ := hb
      have hspc : rel.spc = 0 := hfirst.relSpcNode
      have hdb : rel.db = 0 := hfirst.relDbNode
      have hnode : rel.rel = 0 := hfirst.relNode
      have hblock : readLE32 (slice payload (header.relationAt 0 + 12)
          (header.relationAt 0 + 16)) =
          readLE32 (slice payload (header.relationAt 0) (header.relationAt 0 + 4)) :=
        hfirst.blockNum
      have hword : rel.spc =
          readLE32 (slice payload (header.relationAt 0) (header.relationAt 0 + 4)) := by
        unfold readRelation at hrel
        split at hrel
        · contradiction
        · cases hrel
          rfl
      refine ⟨header, hheader, ?_, by rw [hblock, ← hword, hspc]⟩
      rw [hrel]
      cases rel
      simp_all
    · contradiction

/-- The two parsers agree on every payload that does not open with a
same-relation reference, and disagree on every payload that does, unless the
sixteen bytes the backend reads for it are zero. -/
theorem parsers_agree (payload : Bytes) :
    (¬ OpensWithSameRel payload → SameRefs payload) ∧
      (OpensWithSameRel payload → ¬ OpensWithZeros payload → ¬ SameRefs payload) :=
  ⟨sameRefs_of_not_opens, fun h hzero hsame => hzero (opensWithZeros_of_sameRefs h hsame)⟩

def twoRefs : Bytes :=
  [0, 0x20, 1, 0, 127, 6, 0, 0, 5, 0, 0, 0, 16, 64, 0, 0, 7, 0, 0, 0, 9, 1, 0x80, 0, 0, 8, 0, 0, 0]

theorem parsers_agree_twoRefs :
    SameRefs twoRefs ∧ (parseBlockRefs twoRefs).map (·.blockNum) = [7, 8] :=
  ⟨(parsers_agree twoRefs).1 (by decide), by decide +kernel⟩

/-- A same-relation reference to block 7 and nothing else: the collector stores
it, the backend misses twelve bytes and stores nothing. -/
theorem parsers_differ : ¬ SameRefs [0, 0x80, 0, 0, 7, 0, 0, 0] := fun h =>
  absurd (opensWithZeros_of_sameRefs (by decide) h) (by decide)

end LearnPg.Collector
