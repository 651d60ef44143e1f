import LearnPg.Wal.Scan
import Mathlib.Data.List.Sort

/-! The directory of segment files. -/
namespace LearnPg.Wal

/-- An entry of `pg_wal`, with the outcome of reading it as a file. -/
structure Entry where
  name : String
  isDir : Bool
  file : Except String Bytes

/-- What `pg_wal` holds; no two entries have one name. -/
structure WalDir where
  entries : List Entry
  names_nodup : (entries.map Entry.name).Nodup

/-- `!e.IsDir() && isWALSegmentName(e.Name())`. -/
def Entry.isSegment (e : Entry) : Bool := !e.isDir && isWALSegmentName e.name

def WalDir.segments (dir : WalDir) : List Entry :=
  (dir.entries.filter Entry.isSegment).mergeSort fun a b => a.name ≤ b.name

/-- `ListWALSegments`; the argument stands for the outcome of reading the directory. -/
def listWALSegments (dir : Except String WalDir) : Except String (List Entry) :=
  match dir with
  | .error err => .error ("cannot read pg_wal directory: " ++ err)
  | .ok dir => .ok dir.segments

theorem WalDir.segments_perm (dir : WalDir) :
    dir.segments.Perm (dir.entries.filter Entry.isSegment) := List.mergeSort_perm _ _

theorem WalDir.mem_segments {dir : WalDir} {e : Entry} :
    e ∈ dir.segments ↔ e ∈ dir.entries ∧ e.isSegment = true := by
  rw [dir.segments_perm.mem_iff, List.mem_filter]

theorem WalDir.segments_nodup (dir : WalDir) : (dir.segments.map Entry.name).Nodup := by
  rw [(dir.segments_perm.map _).nodup_iff]
  exact dir.names_nodup.sublist (List.filter_sublist.map _)

theorem WalDir.find_segment {dir : WalDir} {e : Entry} (h : e ∈ dir.segments) :
    dir.segments.find? (fun s => s.name = e.name) = some e := by
  have hnodup := dir.segments_nodup
  generalize dir.segments = segments at h hnodup ⊢
  induction segments with
  | nil => contradiction
  | cons s rest ih =>
    rw [List.map_cons, List.nodup_cons] at hnodup
    rcases List.mem_cons.mp h with rfl | h
    · exact List.find?_cons_of_pos (by simp)
    · have hne : ¬ s.name = e.name := fun heq => hnodup.1 (heq ▸ List.mem_map_of_mem h)
      rw [List.find?_cons_of_neg (by simpa using hne)]
      exact ih h hnodup.2

end LearnPg.Wal
