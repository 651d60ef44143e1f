import LearnPg.Basis.Maps
import LearnPg.Clog.Reader

/-! A page's statuses against its bytes, and the counts that are shown of them. -/
namespace LearnPg.Clog
open Wal LearnPg.Basis LearnPg.Basis.Maps

/-- `stats[key]++`. -/
def increment (key : String) (stats : Map String Nat) : Map String Nat :=
  stats.insert key ((stats.lookup key).getD 0 + 1)

def countStatus (stats : Map String Nat) (tx : TransactionStatus) : Map String Nat :=
  if tx.status = statusInProgress then increment "in_progress" stats
  else if tx.status = statusCommitted then increment "committed" stats
  else if tx.status = statusAborted then increment "aborted" stats
  else if tx.status = statusSubtrans then increment "subtrans" stats
  else stats

def noStatistics (total : Nat) : Map String Nat :=
  ((((Finmap.singleton "in_progress" 0).insert "committed" 0).insert "aborted" 0).insert "subtrans"
    0).insert "total" total

def getStatistics (page : Page) : Map String Nat :=
  page.transactions.foldl countStatus (noStatistics page.transactions.length)

/-! The statuses of a page. -/

def unpack (b : UInt8) : List UInt8 :=
  (List.range 4).map fun bitPos => (b >>> UInt8.ofNat (bitPos * 2)) &&& 0x03

/-- Four statuses to a byte. -/
def pack : List UInt8 → Bytes
  | a :: b :: c :: d :: rest => (a ||| b <<< 2 ||| c <<< 4 ||| d <<< 6) :: pack rest
  | _ => []

def Page.statuses (page : Page) : List UInt8 := page.transactions.map (·.status)

theorem pack_unpack_byte (b : UInt8) (rest : List UInt8) :
    pack (unpack b ++ rest) = b :: pack rest := by
  have hall : ∀ n : Fin 256, pack (unpack (UInt8.ofNat n)) = [UInt8.ofNat n] := by
    decide +kernel
  have hbyte := hall ⟨b.toNat, b.toNat_lt⟩
  rw [UInt8.ofNat_toNat] at hbyte
  exact congrArg (· :: pack rest) (List.cons.inj hbyte).1

theorem pack_unpack (data : Bytes) : pack (data.flatMap unpack) = data := by
  induction data with
  | nil => rfl
  | cons b data ih => rw [List.flatMap_cons, pack_unpack_byte, ih]

theorem unpack_pack_byte {a b c d : UInt8} (ha : a < 4) (hb : b < 4) (hc : c < 4) (hd : d < 4) :
    unpack (a ||| b <<< 2 ||| c <<< 4 ||| d <<< 6) = [a, b, c, d] := by
  have hall : ∀ a b c d : Fin 4, unpack (UInt8.ofNat a ||| UInt8.ofNat b <<< 2 |||
      UInt8.ofNat c <<< 4 ||| UInt8.ofNat d <<< 6) =
        [UInt8.ofNat a, UInt8.ofNat b, UInt8.ofNat c, UInt8.ofNat d] := by decide +kernel
  have hfour := hall ⟨a.toNat, UInt8.lt_iff_toNat_lt.mp ha⟩ ⟨b.toNat, UInt8.lt_iff_toNat_lt.mp hb⟩
    ⟨c.toNat, UInt8.lt_iff_toNat_lt.mp hc⟩ ⟨d.toNat, UInt8.lt_iff_toNat_lt.mp hd⟩
  simpa only [UInt8.ofNat_toNat] using hfour

/-- Statuses of two bits that fill whole bytes are unpacked as they were packed. -/
theorem unpack_pack {statuses : List UInt8} (hwhole : 4 ∣ statuses.length)
    (hbits : ∀ s ∈ statuses, s < 4) : (pack statuses).flatMap unpack = statuses := by
  induction statuses using pack.induct with
  | case1 a b c d rest ih =>
    simp only [List.forall_mem_cons] at hbits
    obtain ⟨ha, hb, hc, hd, hrest⟩ := hbits
    have hrest := ih (by simp only [List.length_cons] at hwhole; omega) hrest
    rw [pack, List.flatMap_cons, unpack_pack_byte ha hb hc hd, hrest]
    rfl
  | case2 rest hshort =>
    rcases rest with _ | ⟨a, _ | ⟨b, _ | ⟨c, _ | ⟨d, rest⟩⟩⟩⟩
    · rfl
    · simp at hwhole
    · simp at hwhole
    · simp at hwhole
    · exact absurd rfl (hshort a b c d rest)

theorem length_unpack (b : UInt8) : (unpack b).length = 4 := by simp [unpack]

theorem length_flatMap_unpack (data : Bytes) :
    (data.flatMap unpack).length = data.length * transactionsPerByte := by
  simp [List.length_flatMap, length_unpack, transactionsPerByte]

theorem parsePage_statuses (pageNum : Nat) {data : Bytes} (hlen : data.length = pageSize) :
    (parsePage pageNum data).statuses = data.flatMap unpack := by
  have hbytes : (List.range pageSize).map (byteAt data) = data := by
    rw [← hlen]
    apply List.ext_getElem
    · simp
    · intro i hi hi'
      simp [byteAt, hi']
  conv_rhs => rw [← hbytes]
  simp only [Page.statuses, parsePage, List.map_flatMap, List.map_map, List.flatMap_map]
  rfl

theorem parsePage_xids {pageNum : Nat} (hpage : pageNum < 2 ^ 17) (data : Bytes) :
    (parsePage pageNum data).transactions.map (·.xid.toNat) =
      List.range' (pageNum * transactionsPerPage) transactionsPerPage := by
  have hsize : transactionsPerPage = 32768 := rfl
  rw [parsePage_transactions, List.map_map, List.range'_eq_map_range]
  apply List.map_congr_left
  intro k hk
  rw [List.mem_range] at hk
  have hfits : pageNum * transactionsPerPage + k < 2 ^ 32 := by
    rw [hsize] at hk ⊢
    omega
  rw [Function.comp_apply]
  exact (UInt32.toNat_ofNat' ..).trans (Nat.mod_eq_of_lt hfits)

/-! The counts. -/

def statusKeys : List (UInt8 × String) :=
  [(statusInProgress, "in_progress"), (statusCommitted, "committed"),
    (statusAborted, "aborted"), (statusSubtrans, "subtrans")]

def Page.count (page : Page) (status : UInt8) : Nat :=
  page.transactions.countP (·.status = status)

/-- The counts are those of the page's entries, and sum to the total. -/
structure Tallied (page : Page) : Prop where
  each : ∀ x ∈ statusKeys, (getStatistics page).lookup x.2 = some (page.count x.1)
  total : (getStatistics page).lookup "total" = some page.transactions.length
  sum : (statusKeys.map fun x => page.count x.1).sum = page.transactions.length

theorem lookup_increment (key k : String) (stats : Map String Nat) :
    (increment key stats).lookup k =
      if k = key then some ((stats.lookup key).getD 0 + 1) else stats.lookup k := by
  unfold increment
  split
  next h => rw [h, Finmap.lookup_insert]
  next h => exact Finmap.lookup_insert_of_ne _ h

theorem lookup_countStatus {x : UInt8 × String} (hx : x ∈ statusKeys) {stats : Map String Nat}
    {n : Nat} (h : stats.lookup x.2 = some n) (tx : TransactionStatus) :
    (countStatus stats tx).lookup x.2 = some (n + if tx.status = x.1 then 1 else 0) := by
  unfold countStatus
  simp only [statusKeys, List.mem_cons, List.not_mem_nil, or_false] at hx
  obtain rfl | rfl | rfl | rfl := hx
  all_goals
    split_ifs <;>
      simp_all [lookup_increment, statusInProgress, statusCommitted, statusAborted, statusSubtrans]

theorem lookup_total (stats : Map String Nat) (tx : TransactionStatus) :
    (countStatus stats tx).lookup "total" = stats.lookup "total" := by
  unfold countStatus
  split_ifs <;> simp [lookup_increment]

theorem lookup_counted {x : UInt8 × String} (hx : x ∈ statusKeys) (txs : List TransactionStatus)
    {stats : Map String Nat} {n : Nat} (h : stats.lookup x.2 = some n) :
    (txs.foldl countStatus stats).lookup x.2 = some (n + txs.countP (·.status = x.1)) := by
  induction txs generalizing stats n with
  | nil => exact h
  | cons tx txs ih =>
    rw [List.foldl_cons, ih (lookup_countStatus hx h tx), List.countP_cons]
    simp only [decide_eq_true_eq, Option.some.injEq]
    omega

theorem lookup_total_counted (txs : List TransactionStatus) (stats : Map String Nat) :
    (txs.foldl countStatus stats).lookup "total" = stats.lookup "total" := by
  induction txs generalizing stats with
  | nil => rfl
  | cons tx txs ih => rw [List.foldl_cons, ih, lookup_total]

theorem sum_counts {page : Page} (h : ∀ s ∈ page.statuses, s < 4) :
    (statusKeys.map fun x => page.count x.1).sum = page.transactions.length := by
  unfold Page.statuses at h
  simp only [Page.count, statusKeys, List.map_cons, List.map_nil, List.sum_cons, List.sum_nil]
  generalize page.transactions = txs at h ⊢
  induction txs with
  | nil => rfl
  | cons tx txs ih =>
    rw [List.map_cons, List.forall_mem_cons] at h
    have hrest := ih h.2
    have hfour : tx.status.toNat < 4 := UInt8.lt_iff_toNat_lt.mp h.1
    simp only [List.countP_cons, decide_eq_true_eq, List.length_cons, statusInProgress,
      statusCommitted, statusAborted, statusSubtrans, ← UInt8.toNat_inj, UInt8.reduceToNat] at *
    grind

theorem tallied {page : Page} (h : ∀ s ∈ page.statuses, s < 4) : Tallied page := by
  refine ⟨fun x hx => ?_, lookup_total_counted _ _, sum_counts h⟩
  have hzero : (noStatistics page.transactions.length).lookup x.2 = some 0 := by
    unfold noStatistics
    simp only [statusKeys, List.mem_cons, List.not_mem_nil, or_false] at hx
    obtain rfl | rfl | rfl | rfl := hx <;> simp [Finmap.lookup_insert_of_ne]
  have hcounted := lookup_counted hx page.transactions hzero
  rw [Nat.zero_add] at hcounted
  exact hcounted

theorem unpack_lt {b s : UInt8} (h : s ∈ unpack b) : s < 4 := by
  obtain ⟨bitPos, -, rfl⟩ := List.mem_map.mp h
  rw [UInt8.lt_iff_toNat_lt, UInt8.toNat_and]
  exact Nat.lt_of_le_of_lt Nat.and_le_right (by decide)

/-- Parsing a page and packing its statuses undo each other. A parsed page has one entry
for each of its xids, in their order, and its counts are those of the entries. -/
theorem parsePage_bijective {pageNum : Nat} (hpage : pageNum < 2 ^ 17) {data : Bytes}
    (hlen : data.length = pageSize) :
    (parsePage pageNum data).transactions.map (·.xid.toNat) =
        List.range' (pageNum * transactionsPerPage) transactionsPerPage ∧
      pack (parsePage pageNum data).statuses = data ∧
      (∀ statuses : List UInt8, statuses.length = transactionsPerPage → (∀ s ∈ statuses, s < 4) →
        (parsePage pageNum (pack statuses)).statuses = statuses) ∧
      Tallied (parsePage pageNum data) := by
  have hstatuses := parsePage_statuses pageNum hlen
  refine ⟨parsePage_xids hpage data, ?_, fun statuses hcount hbits => ?_, tallied ?_⟩
  · rw [hstatuses, pack_unpack]
  · have hwhole : 4 ∣ statuses.length := by
      rw [hcount]
      decide
    have hunpacked := unpack_pack hwhole hbits
    have hpacked : (pack statuses).length = pageSize := by
      have hlength := length_flatMap_unpack (pack statuses)
      rw [hunpacked, hcount] at hlength
      exact (Nat.eq_of_mul_eq_mul_right (by decide) hlength).symm
    rw [parsePage_statuses pageNum hpacked, hunpacked]
  · rw [hstatuses]
    intro s hs
    obtain ⟨b, -, hb⟩ := List.mem_flatMap.mp hs
    exact unpack_lt hb

/-- The last page there is. -/
theorem parsePage_bijective_last :
    (parsePage 131071 (List.replicate pageSize 0xE4)).transactions.map (·.xid.toNat) =
        List.range' (131071 * transactionsPerPage) transactionsPerPage ∧
      pack (parsePage 131071 (List.replicate pageSize 0xE4)).statuses =
        List.replicate pageSize 0xE4 ∧
      (∀ statuses : List UInt8, statuses.length = transactionsPerPage → (∀ s ∈ statuses, s < 4) →
        (parsePage 131071 (pack statuses)).statuses = statuses) ∧
      Tallied (parsePage 131071 (List.replicate pageSize 0xE4)) :=
  parsePage_bijective (by decide) List.length_replicate

end LearnPg.Clog
