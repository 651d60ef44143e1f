import LearnPg.Api.WalEndpoint
import LearnPg.Clog.Reader

/-! The range of xids that the transaction status endpoint reads: the one asked for, else
the last ones before the current xid, else the last ones of the newest status file. -/
namespace LearnPg.Api
open Wal Clog LearnPg.Basis

structure XidQuery where
  startXid : String
  endXid : String

/-- What the handler asks besides: the active client's xid, if there is a client and it
answers, and the names in a directory, if it can be read. -/
structure XidSources where
  currentXid : Option UInt64
  pgDataDir : String
  readDir : Path → Option (List String)

/-- `filepath.Join`, which ignores empty elements. -/
def join (elems : List String) : Path := elems.filter (· ≠ "")

def lastXids (last : UInt32) : UInt32 × UInt32 := (if last > 255 then last - 255 else 0, last)

/-- `len(name) == 4` and `strconv.ParseUint(name, 16, 32)`. -/
def fileNumber (name : String) : Option UInt32 :=
  if name.utf8ByteSize = 4 then (parseUintHex32 name.toList).map UInt32.ofNat else none

def maxFileNum (names : List String) : UInt32 :=
  names.foldl (fun maxFileNum name =>
    match fileNumber name with
    | some n => if n > maxFileNum then n else maxFileNum
    | none => maxFileNum) 0

def XidQuery.start (q : XidQuery) : Int := parseIntQuery q.startXid 0
def XidQuery.last (q : XidQuery) : Int := parseIntQuery q.endXid 0

/-- The first `pg_xact` that can be read. -/
def XidSources.listing (s : XidSources) : Option (List String) :=
  [join [s.pgDataDir], join [s.pgDataDir, "data"]].findSome? fun dataDir =>
    if dataDir = [] then none else s.readDir (dataDir ++ ["pg_xact"])

def resolveXidRange (q : XidQuery) (s : XidSources) : UInt32 × UInt32 :=
  let startXid := UInt32.ofInt q.start
  let endXid := UInt32.ofInt q.last
  if startXid > 0 ∧ endXid ≥ startXid then (startXid, endXid)
  else match s.currentXid.filter (· > 0) with
    | some xid => lastXids xid.toUInt32
    | none =>
      match s.listing with
      | some names => lastXids ((maxFileNum names + 1) * 65536 - 1)
      | none => (0, 255)

/-! What the range should be. -/

def XidQuery.Used (q : XidQuery) : Prop :=
  UInt32.ofInt q.start > 0 ∧ UInt32.ofInt q.last ≥ UInt32.ofInt q.start

instance (q : XidQuery) : Decidable q.Used := inferInstanceAs (Decidable (_ ∧ _))

def FallsBack (q : XidQuery) (s : XidSources) (names : List String) : Prop :=
  ¬ q.Used ∧ s.currentXid.filter (· > 0) = none ∧ s.listing = some names

def Highest (names : List String) (n : UInt32) : Prop :=
  (∃ name ∈ names, fileNumber name = some n) ∧
    ∀ name ∈ names, ∀ m, fileNumber name = some m → m ≤ n

def InSegment (n : UInt32) (range : UInt32 × UInt32) : Prop :=
  n.toNat * transactionsPerSegment ≤ range.1.toNat ∧
    range.2.toNat < (n.toNat + 1) * transactionsPerSegment

instance (n : UInt32) (range : UInt32 × UInt32) : Decidable (InSegment n range) :=
  inferInstanceAs (Decidable (_ ∧ _))

structure MeaningfulRange (q : XidQuery) (s : XidSources) : Prop where
  ordered : (resolveXidRange q s).1 ≤ (resolveXidRange q s).2
  exact : q.Used → (resolveXidRange q s).1.toNat = q.start ∧
    (resolveXidRange q s).2.toNat = q.last
  covered : ∀ names n, FallsBack q s names → Highest names n →
    InSegment n (resolveXidRange q s)

theorem toNat_ofInt (n : Int) : ((UInt32.ofInt n).toNat : Int) = n % 2 ^ 32 := by
  have hnonneg : 0 ≤ n % 2 ^ 32 := Int.emod_nonneg n (by decide)
  have hlt : n % 2 ^ 32 < 2 ^ 32 := Int.emod_lt_of_pos n (by decide)
  unfold UInt32.ofInt
  rw [UInt32.toNat_ofNat', Nat.mod_eq_of_lt (by omega), Int.toNat_of_nonneg hnonneg]

theorem toNat_ofInt_eq_iff {n : Int} : ((UInt32.ofInt n).toNat : Int) = n ↔ 0 ≤ n ∧ n < 2 ^ 32 := by
  rw [toNat_ofInt]
  omega

theorem length_le_utf8ByteSize (name : String) : name.toList.length ≤ name.utf8ByteSize := by
  rw [← String.ofList_toList (s := name), String.toList_ofList]
  induction name.toList with
  | nil => simp
  | cons c text ih =>
    have hpos := c.utf8Size_pos
    rw [String.ofList_cons, String.utf8ByteSize_append, String.utf8ByteSize_singleton,
      List.length_cons]
    omega

theorem fileNumber_lt {name : String} {n : UInt32} (h : fileNumber name = some n) :
    n.toNat < 65536 := by
  unfold fileNumber at h
  split at h
  next hlen =>
    obtain ⟨v, hv, rfl⟩ := Option.map_eq_some_iff.mp h
    unfold parseUintHex32 at hv
    split at hv
    · cases hv
      have hvalue := HexText.value_lt name.toList
      have hchars := length_le_utf8ByteSize name
      have hpow : 16 ^ name.toList.length ≤ 16 ^ 4 :=
        Nat.pow_le_pow_right (by decide) (by omega)
      rw [UInt32.toNat_ofNat']
      exact Nat.lt_of_le_of_lt (Nat.mod_le _ _) (Nat.lt_of_lt_of_le hvalue hpow)
    · contradiction
  · contradiction

theorem largest_loop (ks : List UInt32) (m : UInt32) :
    let largest := ks.foldl (fun m k => if k > m then k else m) m
    (largest = m ∨ largest ∈ ks) ∧ m ≤ largest ∧ ∀ k ∈ ks, k ≤ largest := by
  induction ks generalizing m with
  | nil => exact ⟨.inl rfl, UInt32.le_refl _, nofun⟩
  | cons k ks ih =>
    dsimp only [List.foldl_cons]
    obtain ⟨hfound, hle, hall⟩ := ih (if k > m then k else m)
    by_cases hk : k > m
    · rw [if_pos hk] at hfound hle hall ⊢
      refine ⟨.inr ?_, UInt32.le_trans (UInt32.le_of_lt hk) hle,
        List.forall_mem_cons.mpr ⟨hle, hall⟩⟩
      exact List.mem_cons.mpr hfound
    · rw [if_neg hk] at hfound hle hall ⊢
      exact ⟨hfound.imp_right (List.mem_cons_of_mem k), hle,
        List.forall_mem_cons.mpr ⟨UInt32.le_trans (UInt32.not_lt.mp hk) hle, hall⟩⟩

theorem maxFileNum_loop (names : List String) (maxFileNum : UInt32) :
    let largest := names.foldl (fun maxFileNum name =>
      match fileNumber name with
      | some n => if n > maxFileNum then n else maxFileNum
      | none => maxFileNum) maxFileNum
    (largest = maxFileNum ∨ ∃ name ∈ names, fileNumber name = some largest) ∧
      maxFileNum ≤ largest ∧ ∀ name ∈ names, ∀ n, fileNumber name = some n → n ≤ largest := by
  intro largest
  have hloop : largest =
      (names.filterMap fileNumber).foldl (fun m k => if k > m then k else m) maxFileNum := by
    rw [List.foldl_filterMap]
    unfold largest
    congr 1
    funext m name
    cases fileNumber name <;> rfl
  obtain ⟨hfound, hle, hall⟩ := largest_loop (names.filterMap fileNumber) maxFileNum
  rw [← hloop] at hfound hle hall
  refine ⟨hfound.imp_right List.mem_filterMap.mp, hle, fun name hname n hn => ?_⟩
  exact hall n (List.mem_filterMap.mpr ⟨name, hname, hn⟩)

theorem maxFileNum_highest {names : List String} {n : UInt32} (h : Highest names n) :
    maxFileNum names = n := by
  obtain ⟨⟨name, hname, hn⟩, hlargest⟩ := h
  obtain ⟨hfound, -, hall⟩ := maxFileNum_loop names 0
  apply UInt32.le_antisymm
  · obtain hzero | ⟨x, hx, hmax⟩ := hfound
    · unfold maxFileNum
      rw [hzero]
      exact UInt32.zero_le
    · exact hlargest x hx _ hmax
  · exact hall name hname n hn

theorem lastXids_le (last : UInt32) : (lastXids last).1 ≤ (lastXids last).2 := by
  unfold lastXids
  dsimp only
  split
  next h =>
    rw [UInt32.le_iff_toNat_le, UInt32.toNat_sub_of_le _ _ (UInt32.le_of_lt h)]
    omega
  · exact UInt32.zero_le

theorem inSegment_iff {n : UInt32} (h : n.toNat < 65536) :
    InSegment n (lastXids ((n + 1) * 65536 - 1)) ↔ n = 0 := by
  have hlast : ((n + 1) * 65536 - 1).toNat = n.toNat * 65536 + 65535 := by
    rw [UInt32.toNat_sub, UInt32.toNat_mul, UInt32.toNat_add]
    simp only [UInt32.reduceToNat]
    omega
  have hfirst : (lastXids ((n + 1) * 65536 - 1)).1.toNat = n.toNat * 65536 + 65280 := by
    have hlarge : (255 : UInt32) < (n + 1) * 65536 - 1 := by
      rw [UInt32.lt_iff_toNat_lt, hlast]
      simp only [UInt32.reduceToNat]
      omega
    unfold lastXids
    rw [if_pos hlarge, UInt32.toNat_sub_of_le _ _ (UInt32.le_of_lt hlarge), hlast]
    simp only [UInt32.reduceToNat]
    omega
  have hsecond : (lastXids ((n + 1) * 65536 - 1)).2.toNat = n.toNat * 65536 + 65535 := hlast
  have hsegment : transactionsPerSegment = 1048576 := rfl
  unfold InSegment
  rw [hfirst, hsecond, hsegment, ← UInt32.toNat_inj]
  simp only [UInt32.reduceToNat]
  omega

section

variable {q : XidQuery} {s : XidSources} {names : List String}

theorem resolveXidRange_used (h : q.Used) :
    resolveXidRange q s = (UInt32.ofInt q.start, UInt32.ofInt q.last) := if_pos h

theorem resolveXidRange_fallsBack (h : FallsBack q s names) :
    resolveXidRange q s = lastXids ((maxFileNum names + 1) * 65536 - 1) := by
  obtain ⟨hquery, hxid, hlisting⟩ := h
  refine (if_neg hquery).trans ?_
  rw [hxid, hlisting]

theorem resolveXidRange_ordered : (resolveXidRange q s).1 ≤ (resolveXidRange q s).2 := by
  unfold resolveXidRange
  dsimp only
  split
  next h => exact h.2
  · split
    · exact lastXids_le _
    · split
      · exact lastXids_le _
      · exact UInt32.zero_le

end

/-- The range is meaningful exactly if a query that is used fits in 32 bits and the
fallback finds no segment file but the first. -/
theorem resolveXidRange_meaningful_iff (q : XidQuery) (s : XidSources) :
    MeaningfulRange q s ↔
      (q.Used → (0 ≤ q.start ∧ q.start < 2 ^ 32) ∧ 0 ≤ q.last ∧ q.last < 2 ^ 32) ∧
        ∀ names n, FallsBack q s names → Highest names n → n = 0 := by
  have hexact : (q.Used → (resolveXidRange q s).1.toNat = q.start ∧
      (resolveXidRange q s).2.toNat = q.last) ↔
      (q.Used → (0 ≤ q.start ∧ q.start < 2 ^ 32) ∧ 0 ≤ q.last ∧ q.last < 2 ^ 32) := by
    refine imp_congr_right fun hused => ?_
    rw [resolveXidRange_used hused, toNat_ofInt_eq_iff, toNat_ofInt_eq_iff]
  have hcovered (names : List String) (n : UInt32) (hback : FallsBack q s names)
      (hhighest : Highest names n) : InSegment n (resolveXidRange q s) ↔ n = 0 := by
    obtain ⟨⟨name, -, hname⟩, -⟩ := id hhighest
    rw [resolveXidRange_fallsBack hback, maxFileNum_highest hhighest]
    exact inSegment_iff (fileNumber_lt hname)
  constructor
  · intro h
    exact ⟨hexact.mp h.exact,
      fun names n hback hn => (hcovered names n hback hn).mp (h.covered names n hback hn)⟩
  · rintro ⟨hfits, hfirst⟩
    exact ⟨resolveXidRange_ordered, hexact.mpr hfits,
      fun names n hback hn => (hcovered names n hback hn).mpr (hfirst names n hback hn)⟩

/-- No query, no client, and one segment file: the range ends at xid 131071, which is in
the segment before. -/
theorem resolveXidRange_wrong_segment : ¬ ∀ q s, MeaningfulRange q s := by
  intro h
  have hmeaningful := h ⟨"", ""⟩ ⟨none, "/data", fun _ => some ["0001"]⟩
  have hnumber : fileNumber "0001" = some 1 := by decide
  have hhighest : Highest ["0001"] 1 := by
    refine ⟨⟨"0001", List.mem_singleton_self _, hnumber⟩, ?_⟩
    intro name hname m hm
    rw [List.mem_singleton.mp hname, hnumber] at hm
    cases hm
    decide
  have hcovered := hmeaningful.covered ["0001"] 1 ⟨by decide, rfl, by decide⟩ hhighest
  exact absurd hcovered (by decide)

end LearnPg.Api
