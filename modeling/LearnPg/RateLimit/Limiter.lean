import LearnPg.Basis.Cells
import LearnPg.Http.Message
import LearnPg.RateLimit.Bucket

/-! The limiter: one bucket for each client and kind of route, made when it is first needed. -/
namespace LearnPg.RateLimit

open LearnPg.Basis.Maps LearnPg.Basis.Cells LearnPg.Http

structure BucketKey where
  key : String
  route : String
  deriving DecidableEq

def hasPrefix (text start : String) : Bool := start.toList.isPrefixOf text.toList

def routeBucket (path : String) : String :=
  if path = "/ws" ∨ hasPrefix path "/ws/" then "ws"
  else if hasPrefix path "/api/auth" then "auth"
  else if hasPrefix path "/api/" then "api"
  else "default"

/-- `none` is a nil function. -/
structure Options (F : Type) where
  capacity : F
  refillPerSecond : F
  keyFunc : Option (Request → String)
  exempt : Option (Request → Bool)

structure Limiter (F : Type) where
  capacity : F
  refillRate : F
  keyFunc : Request → String
  exempt : Request → Bool
  buckets : Map BucketKey (Bucket F)

/-- The host that `net.SplitHostPort` returns. -/
def splitHostPort (hostport : List Char) : Option (List Char) :=
  let port := (hostport.reverse.takeWhile (· ≠ ':')).reverse
  let host := hostport.take (hostport.length - port.length - 1)
  if ':' ∉ hostport then none
  else if hostport.head? = some '[' then
    let inner := (hostport.drop 1).takeWhile (· ≠ ']')
    if host ≠ '[' :: inner ++ [']'] ∨ '[' ∈ inner ++ port ∨ ']' ∈ port then none
    else some inner
  else if ':' ∈ host ∨ '[' ∈ hostport ∨ ']' ∈ hostport then none
  else some host

def defaultKeyFunc (r : Request) : String :=
  ((splitHostPort r.remoteAddr.toList).map String.ofList).getD r.remoteAddr

def defaultExempt (r : Request) : Bool :=
  r.path ∈ ["/ws", "/metrics", "/health", "/readyz", "/livez", "/version"]

/-- A request and the readings of the clock: the second is taken if the bucket is made. -/
structure Timed where
  request : Request
  now : Time
  created : Time

inductive Decision where
  | exempt
  | admitted
  | denied (retryAfter : Int)
  deriving DecidableEq

section

variable {F : Type}

def Decision.of (floats : Floats F) (ok : Bool) (retry : Time) : Decision :=
  if ok then .admitted
  else
    let secs := floats.toInt (floats.seconds retry)
    .denied (if secs < 1 then 1 else secs)

def Limiter.keyOf (l : Limiter F) (r : Request) : BucketKey := ⟨l.keyFunc r, routeBucket r.path⟩

def Limiter.newBucket (l : Limiter F) (created : Time) : Bucket F :=
  ⟨l.capacity, l.capacity, l.refillRate, created⟩

def Limiter.getOrCreate (l : Limiter F) (k : BucketKey) (created : Time) : Limiter F × Bucket F :=
  (l.buckets.lookup k).elim
    ({ l with buckets := l.buckets.insert k (l.newBucket created) }, l.newBucket created)
    fun b => (l, b)

/-- The request is of this client and this kind of route, and not exempt. -/
def Limiter.counts (l : Limiter F) (k : BucketKey) (e : Timed) : Bool :=
  !l.exempt e.request && l.keyOf e.request = k

variable [Add F] [Sub F] [Mul F] [Div F] [LT F] [DecidableLT F] [LE F] [DecidableLE F]
  [OfNat F 0] [OfNat F 1]

def new [OfNat F 60] [OfNat F 20] (opts : Options F) : Limiter F where
  capacity := if opts.capacity ≤ 0 then 60 else opts.capacity
  refillRate := if opts.refillPerSecond ≤ 0 then 20 else opts.refillPerSecond
  keyFunc := opts.keyFunc.getD defaultKeyFunc
  exempt := opts.exempt.getD defaultExempt
  buckets := ∅

/-- The limiter's part of a request. The bucket is changed in place. -/
def Limiter.limit (floats : Floats F) (l : Limiter F) (e : Timed) : Limiter F × Decision :=
  if l.exempt e.request then (l, .exempt)
  else
    let k := l.keyOf e.request
    let (l, b) := l.getOrCreate k e.created
    let (b, ok, retry) := b.take floats e.now
    ({ l with buckets := l.buckets.insert k b }, .of floats ok retry)

def Limiter.run (floats : Floats F) (l : Limiter F) : List Timed → List (Timed × Decision)
  | [] => []
  | e :: es => (e, (l.limit floats e).2) :: (l.limit floats e).1.run floats es

def Limiter.answers (floats : Floats F) (l : Limiter F) (k : BucketKey) (es : List Timed) :
    List Decision :=
  ((l.run floats es).filter fun x => l.counts k x.1).map (·.2)

/-- The buckets as cells. -/
def Limiter.cells (floats : Floats F) (l : Limiter F) :
    System BucketKey (Bucket F) Timed Decision where
  key e := if l.exempt e.request then none else some (l.keyOf e.request)
  outside _ := .exempt
  inside cell e :=
    let result := (cell.getD (l.newBucket e.created)).take floats e.now
    (result.1, .of floats result.2.1 result.2.2)

variable {floats : Floats F} {l : Limiter F} {k : BucketKey} {xs ys : List Timed}

theorem under_cells (floats : Floats F) (l : Limiter F) (k : BucketKey) :
    (l.cells floats).under k = l.counts k := by
  funext e
  unfold System.under Limiter.cells Limiter.counts
  cases hexempt : l.exempt e.request <;> simp [hexempt]

theorem limit_cells (e : Timed) : l.limit floats e =
    ({ l with buckets := ((l.cells floats).step l.buckets e).1 },
      ((l.cells floats).step l.buckets e).2) := by
  unfold Limiter.limit System.step Limiter.cells Limiter.getOrCreate
  cases hexempt : l.exempt e.request with
  | true => simp [hexempt]
  | false =>
    cases hb : l.buckets.lookup (l.keyOf e.request) with
    | none => simp [hexempt, hb]
    | some b => simp [hexempt, hb]

theorem run_cells (es : List Timed) : l.run floats es = (l.cells floats).run l.buckets es := by
  induction es generalizing l with
  | nil => rfl
  | cons e es ih =>
    unfold Limiter.run System.run
    rw [ih, limit_cells]
    rfl

def Take.decision (floats : Floats F) (x : Take F) : Decision :=
  .of floats x.admitted x.retryAfter

theorem alone_takes (b : Bucket F) (es : List Timed) :
    ((l.cells floats).alone (some b) es).map (fun x => (x.1.now, x.2)) =
      (b.takes floats (es.map (·.now))).map fun x => (x.time, x.decision floats) := by
  induction es generalizing b with
  | nil => rfl
  | cons e es ih =>
    simp only [System.alone, List.map_cons, Bucket.takes, ih]
    rfl

/-- The bucket that the first of these requests finds or makes. -/
def Limiter.bucket (l : Limiter F) (k : BucketKey) (es : List Timed) : Bucket F :=
  (l.buckets.lookup k).getD (l.newBucket ((es.head?.map (·.created)).getD 0))

/-- The requests under one key take from one bucket, whatever the others do. -/
theorem run_takes (floats : Floats F) (l : Limiter F) (k : BucketKey) (es : List Timed) :
    ((l.run floats es).filter fun x => l.counts k x.1).map (fun x => (x.1.now, x.2)) =
      ((l.bucket k (es.filter (l.counts k))).takes floats
        ((es.filter (l.counts k)).map (·.now))).map fun x => (x.time, x.decision floats) := by
  rw [run_cells, ← under_cells floats l k, outputs_under, under_cells]
  unfold Limiter.bucket
  cases hb : l.buckets.lookup k with
  | some b => exact alone_takes b _
  | none =>
    cases hes : es.filter (l.counts k) with
    | nil => rfl
    | cons e rest => exact alone_takes (l.newBucket e.created) (e :: rest)

theorem answers_takes (k : BucketKey) (es : List Timed) : l.answers floats k es =
    ((l.bucket k (es.filter (l.counts k))).takes floats
      ((es.filter (l.counts k)).map (·.now))).map (Take.decision floats) := by
  have htakes := congrArg (List.map Prod.snd) (run_takes floats l k es)
  simpa only [Limiter.answers, List.map_map, Function.comp_def] using htakes

/-- What a client is answered on one kind of route depends on no other requests. -/
theorem limiter_isolates (floats : Floats F) (l : Limiter F) (k : BucketKey) {xs ys : List Timed}
    (hsame : (xs.filter (l.counts k)).map (fun e => (e.request, e.now)) =
      (ys.filter (l.counts k)).map fun e => (e.request, e.now))
    (hfirst : (xs.filter (l.counts k)).head?.map (·.created) =
      (ys.filter (l.counts k)).head?.map (·.created)) :
    l.answers floats k xs = l.answers floats k ys := by
  have htimes := congrArg (List.map Prod.snd) hsame
  simp only [List.map_map, Function.comp_def] at htimes
  rw [answers_takes, answers_takes, htimes]
  unfold Limiter.bucket
  rw [hfirst]

end

def admittedWithin (start length : ℚ) (x : Time × Decision) : Bool :=
  x.2 = .admitted && (start ≤ x.1 / 1000000000 && x.1 / 1000000000 ≤ start + length)

theorem within_decision (start length : ℚ) (x : Take ℚ) :
    admittedWithin start length (x.time, x.decision rationals) = x.within start length := by
  unfold admittedWithin Take.decision Decision.of Take.within
  cases x.admitted <;> simp

/-- In exact arithmetic, a new limiter admits in any window, of one client on one kind of
route, no more requests than its capacity and what is refilled in a time of that length. -/
theorem new_bounds (opts : Options ℚ) (k : BucketKey) (es : List Timed)
    (hclock : ((es.filter ((new opts).counts k)).map (·.now)).Pairwise (· ≤ ·)) (start : ℚ)
    {length : ℚ} (hlength : 0 ≤ length) :
    ((((new opts).run rationals es).countP fun x =>
      admittedWithin start length (x.1.now, x.2) && (new opts).counts k x.1) : ℚ) ≤
      (new opts).capacity + (new opts).refillRate * length := by
  have hC : 0 ≤ (new opts).capacity := by
    unfold new
    dsimp only
    split
    · norm_num
    next h => exact (not_le.mp h).le
  have hR : 0 ≤ (new opts).refillRate := by
    unfold new
    dsimp only
    split
    · norm_num
    next h => exact (not_le.mp h).le
  have hcount := congrArg (List.countP (admittedWithin start length))
    (run_takes rationals (new opts) k es)
  rw [List.countP_map, List.countP_map, List.countP_filter] at hcount
  simp only [Function.comp_def, within_decision] at hcount
  rw [hcount]
  exact count_within (b := (new opts).bucket k (es.filter ((new opts).counts k))) hC hR hclock
    hlength start

def apiRequest (client : String) : Request := ⟨"GET", "/api/x", client, fun _ => []⟩

def oneToken : Limiter ℚ := new ⟨1, 1, none, none⟩

def alone : List Timed :=
  [⟨apiRequest "1.1.1.1:80", 0, 0⟩, ⟨apiRequest "1.1.1.1:80", 500000000, 0⟩]

def crowded : List Timed :=
  [⟨apiRequest "2.2.2.2:80", 0, 0⟩, ⟨apiRequest "1.1.1.1:80", 0, 0⟩,
    ⟨apiRequest "2.2.2.2:80", 1000, 0⟩, ⟨apiRequest "1.1.1.1:80", 500000000, 7⟩]

theorem limiter_isolates_crowded :
    oneToken.answers rationals ⟨"1.1.1.1", "api"⟩ alone =
      oneToken.answers rationals ⟨"1.1.1.1", "api"⟩ crowded :=
  limiter_isolates rationals oneToken ⟨"1.1.1.1", "api"⟩ rfl rfl

end LearnPg.RateLimit
