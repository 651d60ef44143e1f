import LearnPg.Basis.RecordScan
import Mathlib.Data.List.GetD

/-! Reading back a stream of padded records. The walk returns the bytes of
exactly these records if and only if it meets each of them at its own place: a
record found anywhere else would be its own shift against the zeros around it,
hence blank. -/
namespace LearnPg.Basis.RecordStream
open RecordWalk RecordScan

section
variable {α : Type} (format : Format α) (zero : α)

def Format.padded (raw : List α) : List α :=
  raw ++ List.replicate (format.align raw.length - raw.length) zero

/-- The stream goes on with these records from position `s`, then with zeros. -/
def Carries (stream : Nat → α) (s : Nat) (records : List (List α)) : Prop :=
  ∀ u, stream (s + u) = (records.flatMap (Format.padded format zero)).getD u zero

/-- A record says its own length, and is long enough to be one. -/
def WellSized (raw : List α) : Prop :=
  format.lenOf raw = raw.length ∧ format.minLen ≤ raw.length

variable {format zero} {stream : Nat → α} {s : Nat} {raw : List α} {rest : List (List α)}

@[simp] theorem padded_length :
    (Format.padded format zero raw).length = format.align raw.length := by
  have := format.le_align raw.length
  simp only [Format.padded, List.length_append, List.length_replicate]
  omega

theorem Carries.window_eq (h : Carries format zero stream s (raw :: rest)) :
    window stream s raw.length = raw := by
  apply List.ext_getElem (window_length ..)
  intro i _ hi
  have := h i
  rw [List.flatMap_cons, Format.padded, List.append_assoc, List.getD_append _ _ _ _ hi,
    List.getD_eq_getElem _ _ hi] at this
  simpa [window] using this

theorem Carries.padding (h : Carries format zero stream s (raw :: rest)) {u : Nat}
    (hlow : s + raw.length ≤ u) (hhigh : u < s + format.align raw.length) : stream u = zero := by
  obtain ⟨k, rfl⟩ := Nat.exists_eq_add_of_le hlow
  have := h (raw.length + k)
  rw [List.flatMap_cons, List.getD_append _ _ _ _ (by rw [padded_length]; omega), Format.padded,
    List.getD_append_right _ _ _ _ (by omega)] at this
  rw [Nat.add_assoc, this]
  exact List.getD_replicate zero (by omega)

theorem Carries.tail (h : Carries format zero stream s (raw :: rest)) :
    Carries format zero stream (s + format.align raw.length) rest := by
  intro u
  have := h (format.align raw.length + u)
  rw [List.flatMap_cons, List.getD_append_right _ _ _ _ (by rw [padded_length]; omega),
    padded_length, Nat.add_sub_cancel_left] at this
  rw [Nat.add_assoc, this]

theorem Carries.blank (h : Carries format zero stream s []) {u : Nat} (hu : s ≤ u) :
    stream u = zero := by
  obtain ⟨k, rfl⟩ := Nat.exists_eq_add_of_le hu
  simpa using h k

theorem Carries.blank_lastEnd {records : List (List α)} (grid : Grid)
    (h : Carries format zero stream s records) {u : Nat}
    (hu : (format.rules grid).lastEnd s (records.map List.length) ≤ u) : stream u = zero := by
  induction records generalizing s with
  | nil => exact h.blank hu
  | cons raw rest ih =>
    cases rest with
    | nil =>
      by_cases hpad : u < s + format.align raw.length
      · exact h.padding hu hpad
      · exact h.tail.blank (by omega)
    | cons next rest => exact ih h.tail hu

/-! Blank headers. -/

variable (format zero) in
def BlankIsNone : Prop := format.lenOf (List.replicate format.minLen zero) < format.minLen

theorem lenAt_blank (hblank : BlankIsNone format zero) {t : Nat}
    (h : ∀ j < format.minLen, stream (t + j) = zero) : format.lenAt stream t < format.minLen := by
  have hwindow : window stream t format.minLen = List.replicate format.minLen zero := by
    apply List.ext_getElem (by simp)
    intro j hj _
    simpa [window] using h j (by simpa using hj)
  rw [Format.lenAt, hwindow]
  exact hblank

theorem stream_eq_of_window {t u n : Nat} (h : window stream t n = window stream u n) {j : Nat}
    (hj : j < n) : stream (t + j) = stream (u + j) := by
  have := congrArg (fun l => l[j]?) h
  simpa [window, hj] using this

theorem blank_of_shift_left {t d n : Nat} (hcopy : ∀ j < n, stream (t + j) = stream (t + d + j))
    (hd : 0 < d) (hbefore : ∀ j < d, stream (t + j) = zero) (j : Nat) (hj : j < n) :
    stream (t + j) = zero := by
  induction j using Nat.strong_induction_on with
  | _ j ih =>
    by_cases hjd : j < d
    · exact hbefore j hjd
    · have hearlier := ih (j - d) (by omega) (by omega)
      rw [hcopy _ (by omega)] at hearlier
      rwa [show t + d + (j - d) = t + j by omega] at hearlier

theorem blank_of_shift_right {t d n : Nat} (hcopy : ∀ j < n, stream (t + d + j) = stream (t + j))
    (hd : 0 < d) (hafter : ∀ j, n ≤ j → j < n + d → stream (t + j) = zero) (k j : Nat)
    (hj : j + k = n) : ∀ i, j ≤ i → i < n + d → stream (t + i) = zero := by
  induction k generalizing j with
  | zero => exact fun i hi hin => hafter i (by omega) hin
  | succ k ih =>
    intro i hi hin
    by_cases hij : i = j
    · subst hij
      rw [← hcopy i (by omega), Nat.add_assoc]
      exact ih (i + 1) (by omega) (d + i) (by omega) (by omega)
    · exact ih (j + 1) (by omega) i (by omega) hin

section Exact
variable {grid : Grid} {total : Nat} {records : List (List α)}

theorem walkBytes_head {t : Nat}
    (h : format.walkBytes grid stream total t = raw :: rest) :
    ∃ u, t ≤ u ∧ format.lenAt stream u = raw.length ∧ format.minLen ≤ raw.length ∧
      window stream u raw.length = raw ∧
      (format.rules grid).walk (format.lenAt stream) total t = (u, raw.length) ::
        (format.rules grid).walk (format.lenAt stream) total
          ((format.rules grid).resume u raw.length) ∧
      format.walkBytes grid stream total ((format.rules grid).resume u raw.length) = rest := by
  rw [Format.walkBytes] at h
  cases hwalk : (format.rules grid).walk (format.lenAt stream) total t with
  | nil => simp [hwalk] at h
  | cons p tail =>
    obtain ⟨hle, -, hn, hmin, -, -, htail⟩ := walk_head hwalk
    rw [hwalk, List.map_cons, List.cons.injEq] at h
    obtain ⟨hraw, hrest⟩ := h
    have hlen : p.2 = raw.length := by rw [← hraw, window_length]
    refine ⟨p.1, hle, by rw [← hlen, hn], by rw [← hlen]; exact hmin, by rw [← hlen, hraw], ?_, ?_⟩
    · rw [← hlen, ← htail]
    · rw [← hlen, ← hrest, htail]
      rfl

theorem not_found_right (hblank : BlankIsNone format zero)
    (hcarries : Carries format zero stream s (raw :: rest)) {u : Nat} (hu : s < u)
    (hlen : format.lenAt stream u = raw.length) (hmin : format.minLen ≤ raw.length)
    (hwindow : window stream u raw.length = raw)
    (hafter : ∀ j, raw.length ≤ j → j < raw.length + (u - s) → stream (s + j) = zero) : False := by
  have hcopy (j : Nat) (hj : j < raw.length) : stream (s + (u - s) + j) = stream (s + j) := by
    rw [show s + (u - s) = u by omega]
    exact stream_eq_of_window (hwindow.trans hcarries.window_eq.symm) hj
  have hall := blank_of_shift_right hcopy (by omega) hafter raw.length 0 (by omega)
  have := lenAt_blank hblank (t := u) fun j hj => by
    rw [show u + j = s + (u - s + j) by omega]
    exact hall _ (by omega) (by omega)
  omega

/-- The walk is never late: having found the next record past its place, it does
not find the records still to come. -/
theorem not_found_late (hblank : BlankIsNone format zero)
    (hcarries : Carries format zero stream s (raw :: rest)) {u : Nat} (hu : s < u)
    (hlen : format.lenAt stream u = raw.length) (hmin : format.minLen ≤ raw.length)
    (hwindow : window stream u raw.length = raw)
    (hrest : format.walkBytes grid stream total ((format.rules grid).resume u raw.length) = rest) :
    False := by
  induction rest generalizing s u raw with
  | nil =>
    refine not_found_right hblank hcarries hu hlen hmin hwindow fun j hj _ => ?_
    by_cases hpad : j < format.align raw.length
    · exact hcarries.padding (by omega) (by omega)
    · exact hcarries.tail.blank (by omega)
  | cons next rest ih =>
    by_cases hpad : u + raw.length ≤ s + format.align raw.length
    · exact not_found_right hblank hcarries hu hlen hmin hwindow fun j hj _ =>
        hcarries.padding (by omega) (by omega)
    · obtain ⟨v, hv, hlen', hmin', hwindow', -, hrest'⟩ := walkBytes_head hrest
      have := (format.rules grid).add_le_resume u raw.length
      exact ih hcarries.tail (by omega) hlen' hmin' hwindow' hrest'

theorem not_found_left (hblank : BlankIsNone format zero)
    (hcarries : Carries format zero stream s (raw :: rest)) {u : Nat} (hu : u < s)
    (hlen : format.lenAt stream u = raw.length) (hmin : format.minLen ≤ raw.length)
    (hwindow : window stream u raw.length = raw)
    (hzero : ∀ v, u ≤ v → v < s → stream v = zero) : False := by
  have hcopy (j : Nat) (hj : j < raw.length) : stream (u + j) = stream (u + (s - u) + j) := by
    rw [show u + (s - u) = s by omega]
    exact stream_eq_of_window (hwindow.trans hcarries.window_eq.symm) hj
  have hall := blank_of_shift_left hcopy (by omega) fun j hj => hzero _ (by omega) (by omega)
  have := lenAt_blank hblank (t := u) fun j hj => hall j (by omega)
  omega

theorem walk_eq_placed_of_walkBytes (hblank : BlankIsNone format zero)
    (hcarries : Carries format zero stream s records) {t : Nat} (hts : t ≤ s)
    (hzero : ∀ u, t ≤ u → u < s → stream u = zero)
    (h : format.walkBytes grid stream total t = records) :
    (format.rules grid).walk (format.lenAt stream) total t =
      (format.rules grid).placed s (records.map List.length) := by
  induction records generalizing s t with
  | nil => simpa [Format.walkBytes, Rules.placed] using h
  | cons raw rest ih =>
    obtain ⟨u, htu, hlen, hmin, hwindow, hwalk, hrest⟩ := walkBytes_head h
    have hnot_late : ¬ s < u := fun hu =>
      not_found_late hblank hcarries hu hlen hmin hwindow hrest
    have hnot_early : ¬ u < s := fun hu =>
      not_found_left hblank hcarries hu hlen hmin hwindow fun v hv => hzero v (by omega)
    obtain rfl : u = s := by omega
    rw [hwalk, List.map_cons, Rules.placed]
    congr 1
    refine ih hcarries.tail ((format.rules grid).resume_le_add u _) (fun v hv hv' => ?_) hrest
    have hle := (format.rules grid).add_le_resume u raw.length
    exact hcarries.padding (by omega) hv'

theorem placed_windows (hcarries : Carries format zero stream s records) :
    ((format.rules grid).placed s (records.map List.length)).map
      (fun p => window stream p.1 p.2) = records := by
  induction records generalizing s with
  | nil => rfl
  | cons raw rest ih =>
    rw [List.map_cons, Rules.placed, List.map_cons, hcarries.window_eq]
    exact congrArg _ (ih hcarries.tail)

theorem placed_reads (hcarries : Carries format zero stream s records)
    (hsized : ∀ raw ∈ records, WellSized format raw) :
    Reads (format.rules grid) (format.lenAt stream) s (records.map List.length) := by
  induction records generalizing s with
  | nil => simp [Reads, Rules.placed]
  | cons raw rest ih =>
    obtain ⟨hlen, hmin⟩ := hsized raw List.mem_cons_self
    have htail := ih hcarries.tail fun r hr => hsized r (List.mem_cons_of_mem raw hr)
    rintro p (_ | ⟨_, hp⟩)
    · refine ⟨?_, hmin⟩
      rw [← hlen, ← lenOf_window stream hmin, hcarries.window_eq]
    · exact htail p hp

/-- The walk over a stream of padded records returns exactly these records if
and only if each record follows the one before it. -/
theorem walkBytes_eq_iff (hblank : BlankIsNone format zero)
    (hcarries : Carries format zero stream s records)
    (hsized : ∀ raw ∈ records, WellSized format raw)
    (hstart : s + format.minLen ≤ grid.pageEnd s)
    (hedge : ∀ u, grid.AtEdge u → u + format.minLen ≤ grid.pageEnd u)
    (htotal : (format.rules grid).finish s (records.map List.length) ≤ total) :
    format.walkBytes grid stream total s = records ↔
      (format.rules grid).Met s (records.map List.length) := by
  have hquiet (u : Nat) (hu : (format.rules grid).lastEnd s (records.map List.length) ≤ u) :
      format.lenAt stream u < format.minLen :=
    lenAt_blank hblank fun j _ => hcarries.blank_lastEnd grid (by omega)
  rw [← walk_eq_placed_iff (placed_reads hcarries hsized) hstart hedge hquiet htotal]
  constructor
  · exact walk_eq_placed_of_walkBytes hblank hcarries (Nat.le_refl s) fun u _ _ => by omega
  · intro h
    rw [Format.walkBytes, h, placed_windows hcarries]

end Exact

end
end LearnPg.Basis.RecordStream
