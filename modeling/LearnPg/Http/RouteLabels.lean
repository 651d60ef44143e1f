import LearnPg.Basis.Decimal
import LearnPg.Basis.Paths
import LearnPg.Http.Chain

/-! The label under which the metrics count a request, and the routes that it stands for. -/
namespace LearnPg.Http.RouteLabels

open LearnPg.Basis

/-- A part of a route: a word, or the place of an id. -/
inductive Segment where
  | word (text : String)
  | id
  deriving DecidableEq

abbrev Route := List Segment

/-- The routes of `SetupRoutes`, as their handlers take the rest of a path apart. That of a
file of the commit log is not among them: the name of such a file is no id. -/
def routes : List Route :=
  [[.word "health"], [.word "readyz"], [.word "livez"], [.word "version"], [.word "metrics"],
    [.word "ws"], [.word "api", .word "openapi.json"], [.word "api", .word "connect"],
    [.word "api", .word "execute"], [.word "api", .word "workspace", .word "projects"],
    [.word "api", .word "workspace", .word "projects", .id],
    [.word "api", .word "projects"], [.word "api", .word "projects", .id],
    [.word "api", .word "projects", .id, .word "clusters"],
    [.word "api", .word "clusters", .id], [.word "api", .word "clusters", .id, .word "teardown"],
    [.word "api", .word "clusters", .id, .word "nodes"],
    [.word "api", .word "cluster", .id, .word "overview"],
    [.word "api", .word "cluster", .word "overview"],
    [.word "api", .word "cluster", .word "node", .word "inspect"],
    [.word "api", .word "wal"], [.word "api", .word "wal", .word "segments"],
    [.word "api", .word "clog"], [.word "api", .word "clog", .word "status"],
    [.word "api", .word "snapshot"], [.word "api", .word "provision", .word "single"],
    [.word "api", .word "provision", .word "physical"],
    [.word "api", .word "provision", .word "logical"],
    [.word "api", .word "provision", .word "tasks"],
    [.word "api", .word "provision", .word "tasks", .id],
    [.word "api", .word "discovery", .word "host", .word "scan"],
    [.word "api", .word "discovery", .word "host", .word "import"],
    [.word "api", .word "discovery", .word "dsn", .word "validate"],
    [.word "api", .word "discovery", .word "dsn", .word "import"],
    [.word "api", .word "nodes", .id], [.word "api", .word "nodes", .id, .word "activate"],
    [.word "api", .word "nodes", .id, .word "deactivate"],
    [.word "api", .word "nodes", .id, .word "register"],
    [.word "api", .word "nodes", .id, .word "status"],
    [.word "api", .word "hosts"], [.word "api", .word "hosts", .id],
    [.word "api", .word "tasks"], [.word "api", .word "tasks", .id],
    [.word "api", .word "telemetry", .word "errors"],
    [.word "api", .word "telemetry", .word "errors", .word "top"],
    [.word "api", .word "telemetry", .word "vitals"]]

def kinds : List String := ["task", "cluster", "node", "host"]

def genID (kind : String) (nanos : Nat) : String := kind ++ "-" ++ toString nanos

def IsUUID (s : String) : Prop :=
  (s.toList.splitOn '-').map List.length = [8, 4, 4, 4, 12] ∧
    ∀ c ∈ s.toList, c = '-' ∨ (HexText.digitValue c).isSome

def IsID (s : String) : Prop := (∃ kind ∈ kinds, ∃ nanos, s = genID kind nanos) ∨ IsUUID s

def Segment.Matches : Segment → String → Prop
  | .word text, s => s = text
  | .id, s => IsID s

def path (segments : List String) : String :=
  .ofList (['/'].intercalate ([] :: segments.map String.toList))

def Requests (route : Route) (p : String) : Prop :=
  ∃ segments, List.Forall₂ Segment.Matches route segments ∧ p = path segments

/-- The route has one label, no other route has it, and it is its own label. -/
structure Bounded (route : Route) : Prop where
  one : ∀ p q, Requests route p → Requests route q → routeLabel p = routeLabel q
  apart : ∀ other ∈ routes, other ≠ route →
    ∀ p q, Requests route p → Requests other q → routeLabel p ≠ routeLabel q
  again : ∀ p, Requests route p → routeLabel (routeLabel p) = routeLabel p

/-! A label is its own label, of whatever path. -/

/-- What `routeLabel` makes of one segment. -/
def collapsed (s : List Char) : List Char :=
  if 16 ≤ s.length ∧ isIDLike s = true then "\x7bid\x7d".toList else s

theorem collapsed_collapsed (s : List Char) : collapsed (collapsed s) = collapsed s := by
  unfold collapsed
  split
  next => exact if_neg (by decide)
  next => rfl

theorem routeLabel_eq (p : String) :
    routeLabel p = .ofList (['/'].intercalate ((p.toList.splitOn '/').map collapsed)) := by
  unfold routeLabel
  simp only [Bool.and_eq_true, decide_eq_true_eq, List.any_eq_true]
  split
  next => rfl
  next hnone =>
    have hsame : ∀ s ∈ p.toList.splitOn '/', collapsed s = id s :=
      fun s hs => if_neg fun h => hnone ⟨s, hs, h⟩
    rw [List.map_congr_left hsame, List.map_id, List.intercalate_splitOn, String.ofList_toList]

theorem routeLabel_routeLabel (p : String) : routeLabel (routeLabel p) = routeLabel p := by
  have hfree : ∀ s ∈ (p.toList.splitOn '/').map collapsed, '/' ∉ s := by
    intro s hs
    obtain ⟨t, ht, rfl⟩ := List.mem_map.mp hs
    unfold collapsed
    split
    · decide
    · exact Paths.sep_notMem_splitOn ht
  rw [routeLabel_eq (routeLabel p), routeLabel_eq p, String.toList_ofList,
    List.splitOn_intercalate '/' hfree (by simp), List.map_map]
  congr 2
  exact List.map_congr_left fun s _ => collapsed_collapsed s

/-! The ids have a hyphen, and so are not taken for ids. -/

theorem genID_toList (kind : String) (nanos : Nat) :
    (genID kind nanos).toList = kind.toList ++ '-' :: Nat.toDigits 10 nanos := by
  simp [genID, Nat.repr]

theorem hyphen_of_isID {s : String} (h : IsID s) : '-' ∈ s.toList := by
  obtain ⟨kind, -, nanos, rfl⟩ | ⟨hlengths, -⟩ := h
  · simp [genID_toList]
  · by_contra hnone
    rw [List.splitOn_eq_singleton hnone] at hlengths
    simp at hlengths

theorem slash_of_isID {s : String} (h : IsID s) : '/' ∉ s.toList := by
  obtain ⟨kind, hkind, nanos, rfl⟩ | ⟨-, hchars⟩ := h
  · have hslash : ∀ kind ∈ kinds, '/' ∉ kind.toList := by decide
    have hdigits : '/' ∉ Nat.toDigits 10 nanos := fun hc => by
      have hdigit := Decimal.isDigit_of_mem '/' hc
      revert hdigit
      decide
    simp [genID_toList, hslash kind hkind, hdigits]
  · intro hc
    have hhex := hchars '/' hc
    revert hhex
    decide

theorem collapsed_of_hyphen {s : List Char} (h : '-' ∈ s) : collapsed s = s := by
  have hnot : isIDLike s = false := by
    unfold isIDLike
    rw [Bool.and_assoc, Bool.and_eq_false_iff]
    exact .inl (List.all_eq_false.mpr ⟨'-', h, by decide⟩)
  exact if_neg fun hlike => by simp [hnot] at hlike

/-- A word of a route is short, and has neither a hyphen nor a slash. -/
def Segment.Plain : Segment → Prop
  | .word text => '-' ∉ text.toList ∧ '/' ∉ text.toList ∧ text.length < 16
  | .id => True

instance : DecidablePred Segment.Plain
  | .word _ => inferInstanceAs (Decidable (_ ∧ _ ∧ _))
  | .id => inferInstanceAs (Decidable True)

theorem routes_plain : ∀ route ∈ routes, ∀ segment ∈ route, segment.Plain := by
  decide

theorem Segment.Matches.plain {segment : Segment} {s : String} (h : segment.Matches s)
    (hplain : segment.Plain) : '/' ∉ s.toList ∧ collapsed s.toList = s.toList := by
  cases segment with
  | word text =>
    cases h
    obtain ⟨-, hslash, hshort⟩ := hplain
    refine ⟨hslash, if_neg fun hlike => ?_⟩
    rw [String.length_toList] at hlike
    omega
  | id => exact ⟨slash_of_isID h, collapsed_of_hyphen (hyphen_of_isID h)⟩

theorem Segment.Matches.unique {segment other : Segment} {s : String} (h : segment.Matches s)
    (hother : other.Matches s) (hplain : segment.Plain) (hplain' : other.Plain) :
    segment = other := by
  cases segment with
  | word text =>
    cases h
    cases other with
    | word text' =>
      cases hother
      rfl
    | id => exact absurd (hyphen_of_isID hother) hplain.1
  | id =>
    cases other with
    | word text' =>
      cases hother
      exact absurd (hyphen_of_isID h) hplain'.1
    | id => rfl

section

variable {route other : Route} {segments : List String}

theorem path_splitOn (hslash : ∀ s ∈ segments, '/' ∉ s.toList) :
    (path segments).toList.splitOn '/' = [] :: segments.map String.toList := by
  unfold path
  rw [String.toList_ofList]
  refine List.splitOn_intercalate '/' ?_ (by simp)
  simpa using hslash

theorem path_injective {others : List String} (hslash : ∀ s ∈ segments, '/' ∉ s.toList)
    (hslash' : ∀ s ∈ others, '/' ∉ s.toList) (h : path segments = path others) :
    segments = others := by
  have hsplit := path_splitOn hslash
  rw [h, path_splitOn hslash'] at hsplit
  refine (List.map_injective_iff.mpr (fun _ _ => String.toList_injective) ?_).symm
  exact (List.cons.inj hsplit).2

theorem matches_plain (h : List.Forall₂ Segment.Matches route segments)
    (hplain : ∀ segment ∈ route, segment.Plain) :
    ∀ s ∈ segments, '/' ∉ s.toList ∧ collapsed s.toList = s.toList := by
  induction h with
  | nil => simp
  | cons hmatch _ ih =>
    simp only [List.forall_mem_cons] at hplain ⊢
    exact ⟨hmatch.plain hplain.1, ih hplain.2⟩

theorem matches_unique (h : List.Forall₂ Segment.Matches route segments)
    (hother : List.Forall₂ Segment.Matches other segments)
    (hplain : ∀ segment ∈ route, segment.Plain) (hplain' : ∀ segment ∈ other, segment.Plain) :
    route = other := by
  induction h generalizing other with
  | nil =>
    cases hother
    rfl
  | cons hmatch _ ih =>
    cases hother with
    | cons hmatch' hrest =>
      simp only [List.forall_mem_cons] at hplain hplain'
      rw [hmatch.unique hmatch' hplain.1 hplain'.1, ih hrest hplain.2 hplain'.2]

theorem routeLabel_request (hroute : route ∈ routes) {p : String} (h : Requests route p) :
    routeLabel p = p := by
  obtain ⟨segments, hmatch, rfl⟩ := h
  have hplain := matches_plain hmatch (routes_plain route hroute)
  have hmap : (segments.map String.toList).map collapsed = segments.map String.toList := by
    rw [List.map_map]
    exact List.map_congr_left fun s hs => (hplain s hs).2
  rw [routeLabel_eq, path_splitOn fun s hs => (hplain s hs).1, List.map_cons, hmap]
  rfl

/-- A path tells its route. -/
theorem route_unique (hroute : route ∈ routes) (hother : other ∈ routes) {p : String}
    (h : Requests route p) (h' : Requests other p) : route = other := by
  obtain ⟨segments, hmatch, rfl⟩ := h
  obtain ⟨others, hmatch', hpath⟩ := h'
  have hplain := matches_plain hmatch (routes_plain route hroute)
  have hplain' := matches_plain hmatch' (routes_plain other hother)
  have hsame := path_injective (fun s hs => (hplain s hs).1) (fun s hs => (hplain' s hs).1) hpath
  subst hsame
  exact matches_unique hmatch hmatch' (routes_plain route hroute) (routes_plain other hother)

def filled (id : String) : Segment → String
  | .word text => text
  | .id => id

theorem filled_matches {id : String} (hid : IsID id) (route : Route) :
    List.Forall₂ Segment.Matches route (route.map (filled id)) := by
  rw [List.forall₂_map_right_iff, List.forall₂_same]
  intro segment _
  cases segment with
  | word text => rfl
  | id => exact hid

theorem matches_words (hnone : .id ∉ route) (h : List.Forall₂ Segment.Matches route segments) :
    segments = route.map (filled "") := by
  induction h with
  | nil => rfl
  | @cons segment s _ _ hmatch _ ih =>
    simp only [List.mem_cons, not_or] at hnone
    cases segment with
    | word text =>
      cases hmatch
      rw [List.map_cons, ih hnone.2]
      rfl
    | id => exact absurd rfl hnone.1

theorem genID_isID {kind : String} (hkind : kind ∈ kinds) (nanos : Nat) :
    IsID (genID kind nanos) := .inl ⟨kind, hkind, nanos, rfl⟩

/-- Without an id there is one request, with one there are as many as there are ids. -/
theorem one_label_iff (hroute : route ∈ routes) :
    (∀ p q, Requests route p → Requests route q → routeLabel p = routeLabel q) ↔
      .id ∉ route := by
  constructor
  · intro hone hid
    have hrequest (nanos : Nat) :
        Requests route (path (route.map (filled (genID "task" nanos)))) :=
      ⟨_, filled_matches (genID_isID (by decide) nanos) route, rfl⟩
    have hslash (nanos : Nat) (s : String)
        (hs : s ∈ route.map (filled (genID "task" nanos))) : '/' ∉ s.toList :=
      (matches_plain (filled_matches (genID_isID (by decide) nanos) route)
        (routes_plain route hroute) s hs).1
    have hlabels := hone _ _ (hrequest 0) (hrequest 1)
    rw [routeLabel_request hroute (hrequest 0), routeLabel_request hroute (hrequest 1)] at hlabels
    have hsegments := path_injective (hslash 0) (hslash 1) hlabels
    have hids : genID "task" 0 = genID "task" 1 := List.map_inj_left.mp hsegments .id hid
    revert hids
    decide
  · rintro hnone p q ⟨segments, hmatch, rfl⟩ ⟨others, hmatch', rfl⟩
    rw [matches_words hnone hmatch, matches_words hnone hmatch']

theorem bounded_iff (hroute : route ∈ routes) : Bounded route ↔ .id ∉ route := by
  constructor
  · exact fun h => (one_label_iff hroute).mp h.one
  · intro hnone
    refine ⟨(one_label_iff hroute).mpr hnone, ?_, fun p _ => routeLabel_routeLabel p⟩
    intro other hother hne p q hp hq hlabels
    rw [routeLabel_request hroute hp, routeLabel_request hother hq] at hlabels
    subst hlabels
    exact hne (route_unique hother hroute hq hp)

end

theorem bounded_hosts :
    Bounded [.word "api", .word "hosts"] ∧ ¬ Bounded [.word "api", .word "hosts", .id] := by
  constructor
  · exact (bounded_iff (by decide)).mpr (by decide)
  · exact fun h => (bounded_iff (by decide)).mp h (by decide)

/-- The ids of two tasks, and the two labels that they make. -/
theorem task_labels :
    Requests [.word "api", .word "tasks", .id] "/api/tasks/task-1700000000000000000" ∧
    Requests [.word "api", .word "tasks", .id] "/api/tasks/task-1700000000000000001" ∧
    routeLabel "/api/tasks/task-1700000000000000000" ≠
      routeLabel "/api/tasks/task-1700000000000000001" := by
  have hrequest (nanos : Nat) : Requests [.word "api", .word "tasks", .id]
      (path ["api", "tasks", genID "task" nanos]) :=
    ⟨_, filled_matches (genID_isID (by decide) nanos) [.word "api", .word "tasks", .id], rfl⟩
  refine ⟨hrequest 1700000000000000000, hrequest 1700000000000000001, ?_⟩
  decide

end LearnPg.Http.RouteLabels
