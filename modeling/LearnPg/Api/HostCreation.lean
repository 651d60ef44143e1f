import LearnPg.Api.Operations
import LearnPg.Basis.Runs
import LearnPg.Workspace.Edits
import LearnPg.Workspace.Hosts

/-! Requests that create hosts, in any order. Each appends its host in one section under the
store's mutex, and looks for it in another by name and address. -/
namespace LearnPg.Api.HostCreation
open Workspace.Data Workspace.Store Workspace.Hosts Basis.Runs

/-- The host that a request asks for, still without an id. -/
def newHost (now : Int) (req : HostCreateRequest) : Except ApiError Host :=
  if isBlank req.name then .error ⟨400, "name is required"⟩
  else if isBlank req.host then .error ⟨400, "host is required"⟩
  else
    let port := orDefaultInt req.port 22
    if port < 1 ∨ 65535 < port then .error ⟨400, "port must be between 1 and 65535"⟩
    else .ok ⟨"", req.name, req.host, port, orDefaultStr req.sshUser "root", req.sshKey, now⟩

/-- The host as `AppendHost` stores it. -/
def stampedHost (w : World) (host : Host) : Host :=
  { host with
    id := if host.id = "" then "host-" ++ toString w.unixNano else host.id
    createdAt := if host.createdAt = 0 then w.unixMilli else host.createdAt }

/-- The second section of a request and the loop over the hosts that it reads. -/
def fetchHost (s : WorkspaceStore) (w : World) (host : Host) (file : File) :
    Except ApiError Host :=
  match readHosts s w file with
  | .error err => .error ⟨500, "failed to re-fetch host after creation: " ++ err⟩
  | .ok hosts =>
    match hosts.items.find? fun h => h.host = host.host ∧ h.name = host.name with
    | none => .error ⟨500, "host created but not found in re-fetch"⟩
    | some saved => .ok saved

/-- A request between its two sections and behind them, with the hosts that were stored
before it appended its own. -/
inductive Creation where
  | waiting
  | refused (err : ApiError)
  | appended (before : List Host) (host : Host)
  | answered (before : List Host) (host : Host) (answer : Except ApiError Host)

structure Creations where
  file : File
  requests : Nat → Creation

/-- `create` is the handler of the request `i` up to the append, `answer` the rest of it. -/
inductive CreationLabel where
  | create (i : Nat) (req : HostCreateRequest) (now : Int) (w : World)
  | answer (i : Nat) (w : World)

section

variable (s : WorkspaceStore)

def Creations.set (c : Creations) (i : Nat) (creation : Creation) : Creations :=
  { c with requests := Function.update c.requests i creation }

def Creations.create (c : Creations) (i : Nat) (req : HostCreateRequest) (now : Int)
    (w : World) : Creations :=
  match newHost now req with
  | .error err => c.set i (.refused err)
  | .ok host =>
    match (txn s w (.appendHost host)).exec c.file with
    | .error err => c.set i (.refused ⟨500, err⟩)
    | .ok file =>
      { c with file }.set i (.appended (hostsOf c.file) (stampedHost w host))

def Creations.answer (c : Creations) (i : Nat) (before : List Host) (host : Host) (w : World) :
    Creations :=
  c.set i (.answered before host (fetchHost s w host c.file))

def Creations.step (c : Creations) : CreationLabel → Option Creations
  | .create i req now w =>
    match c.requests i with
    | .waiting => some (c.create s i req now w)
    | _ => none
  | .answer i w =>
    match c.requests i with
    | .appended before host => some (c.answer s i before host w)
    | _ => none

/-- Any number of requests, beginning with a file. -/
def creations (file : File) : Machine Creations CreationLabel where
  init := ⟨file, fun _ => .waiting⟩
  step := Creations.step s

end

/-- The answer is the host that the request appended behind `before`; an update or a delete
by its id is made in its place. -/
structure ReturnsNew (hosts before : List Host) (host answer : Host) : Prop where
  own : answer = host
  addressed : ∃ after, hosts = before ++ host :: after ∧ ∀ f : Host → Except String (List Host),
    editHost answer.id f (.of hosts) = (f host).map fun hs => .of (before ++ (hs ++ after))

def Fresh (before : List Host) (host : Host) : Prop :=
  ∀ h ∈ before, ¬ (h.host = host.host ∧ h.name = host.name) ∧ h.id ≠ host.id

/-- What is known of a request when `hosts` are stored. -/
def Creation.Placed (hosts : List Host) : Creation → Prop
  | .waiting | .refused _ => True
  | .appended before host => before ++ [host] <+: hosts
  | .answered before host answer =>
    before ++ [host] <+: hosts ∧ ∀ saved, answer = .ok saved →
      (before ++ [host]).find? (fun h => h.host = host.host ∧ h.name = host.name) = some saved

section

variable {s : WorkspaceStore} {w : World} {file file' : File} {c c' : Creations} {i j : Nat}
  {before after hosts hosts' : List Host} {host answer : Host}

/-- Undisturbed between its two sections, a request is the handler that creates a host. -/
theorem serveHostCreate_eq (s : WorkspaceStore) (w : Nat → World) (req : HostCreateRequest)
    (file : File) : serveHostCreate s w req file =
      match newHost (w 0).unixMilli req with
      | .error err => (file, .error err)
      | .ok host => stored s (w 1) (.appendHost host) 500 "" file (fetchHost s (w 2) host) := by
  unfold serveHostCreate newHost
  split
  · rfl
  · split
    · rfl
    · dsimp only
      split <;> rfl

theorem hostsOf_append (h : (txn s w (.appendHost host)).exec file = .ok file') :
    hostsOf file' = hostsOf file ++ [stampedHost w host] := by
  obtain ⟨env, next, hread, hedit, hwrite⟩ := locked_ok h
  obtain ⟨hhosts, -⟩ := onHosts_ok hedit
  rw [hostsOf_write hwrite, ← hostsOf_read hread, ← Except.ok.inj hhosts]
  rfl

theorem Creation.Placed.mono {creation : Creation} (h : creation.Placed hosts)
    (hle : hosts <+: hosts') : creation.Placed hosts' := by
  cases creation with
  | waiting | refused => trivial
  | appended => exact h.trans hle
  | answered => exact ⟨h.1.trans hle, h.2⟩

theorem set_placed {creation : Creation} (h : ∀ i, (c.requests i).Placed (hostsOf c.file))
    (hi : creation.Placed (hostsOf c.file)) :
    ∀ j, ((c.set i creation).requests j).Placed (hostsOf c.file) := by
  intro j
  unfold Creations.set
  by_cases hij : j = i
  · simp [hij, hi]
  · simp [hij, h j]

theorem find_placed {p : Host → Bool} (hp : p host = true) (hle : before ++ [host] <+: hosts) :
    hosts.find? p = (before ++ [host]).find? p := by
  obtain ⟨rest, rfl⟩ := hle
  rw [List.find?_append]
  have hsome : ((before ++ [host]).find? p).isSome = true := by
    rw [List.find?_isSome]
    exact ⟨host, by simp, hp⟩
  rw [Option.or_of_isSome hsome]

theorem fetchHost_ok (h : fetchHost s w host file = .ok answer) :
    (hostsOf file).find? (fun h => h.host = host.host ∧ h.name = host.name) = some answer := by
  unfold fetchHost at h
  cases hread : readHosts s w file with
  | error err =>
    rw [hread] at h
    cases h
  | ok found =>
    obtain ⟨env, henv, hfound⟩ := bind_ok.mp hread
    cases hfound
    rw [hread] at h
    dsimp only at h
    rw [hostsOf_read henv] at h
    split at h
    · cases h
    next saved hfind =>
      cases h
      exact hfind

theorem create_placed {req : HostCreateRequest} {now : Int}
    (h : ∀ i, (c.requests i).Placed (hostsOf c.file)) :
    ∀ j, ((c.create s i req now w).requests j).Placed (hostsOf (c.create s i req now w).file) := by
  unfold Creations.create
  split
  · exact set_placed h trivial
  next host _ =>
    split
    · exact set_placed h trivial
    next file hexec =>
      have hhosts := hostsOf_append hexec
      have hle : hostsOf c.file <+: hostsOf file := by simp [hhosts]
      refine set_placed (c := { c with file }) (fun j => (h j).mono hle) ?_
      simp [Creation.Placed, hhosts]

theorem answer_placed (h : ∀ i, (c.requests i).Placed (hostsOf c.file))
    (hi : c.requests i = .appended before host) :
    ∀ j, ((c.answer s i before host w).requests j).Placed (hostsOf c.file) := by
  have hle := h i
  rw [hi] at hle
  refine set_placed h ⟨hle, ?_⟩
  intro saved hsaved
  rw [← fetchHost_ok hsaved, find_placed (by simp) hle]

theorem step_placed {label : CreationLabel} {c' : Creations}
    (h : ∀ i, (c.requests i).Placed (hostsOf c.file))
    (hstep : (creations s file).step c label = some c') :
    ∀ i, (c'.requests i).Placed (hostsOf c'.file) := by
  cases label with
  | create i req now w =>
    simp only [creations, Creations.step] at hstep
    split at hstep
    · cases hstep
      exact create_placed h
    · cases hstep
  | answer i w =>
    simp only [creations, Creations.step] at hstep
    split at hstep
    next hi =>
      cases hstep
      exact answer_placed h hi
    · cases hstep

/-- In every run, an answer is the first host with the name and the address. -/
theorem creations_placed {labels : List CreationLabel}
    (hrun : (creations s file).run labels = some c) :
    ∀ i, (c.requests i).Placed (hostsOf c.file) := by
  have hinit : ∀ i, ((creations s file).init.requests i).Placed
      (hostsOf (creations s file).init.file) := fun i => trivial
  exact run_keeps hinit (fun _ _ _ h hstep => step_placed h hstep) hrun

theorem editHost_at (hid : ∀ h ∈ before, h.id ≠ host.id)
    (f : Host → Except String (List Host)) :
    editHost host.id f (.of (before ++ host :: after)) =
      (f host).map fun hs => .of (before ++ (hs ++ after)) := by
  have hedit : editFirst (fun h => if h.id = host.id then some (f h) else none)
      (before ++ host :: after) = some ((f host).map fun hs => before ++ (hs ++ after)) := by
    induction before with
    | nil => simp [editFirst]
    | cons h before ih =>
      have hrest := ih fun h' hmem => hid h' (List.mem_cons_of_mem h hmem)
      rw [List.cons_append, editFirst, if_neg (hid h List.mem_cons_self), hrest]
      cases f host <;> rfl
  unfold editHost editSlice
  simp only [Slice.items, hedit]
  cases f host <;> rfl

def renamed (h : Host) : Except String (List Host) := .ok [{ h with name := h.name ++ "'" }]

theorem not_addressed (hbefore : ∃ h ∈ before, h.id = host.id)
    (h : ∀ f, editHost host.id f (.of (before ++ host :: after)) =
      (f host).map fun hs => .of (before ++ (hs ++ after))) : False := by
  have hfind : (before.find? (·.id = host.id)).isSome = true := by
    rw [List.find?_isSome]
    obtain ⟨q, hq, hid⟩ := hbefore
    exact ⟨q, hq, by simpa using hid⟩
  obtain ⟨q, hq⟩ := Option.isSome_iff_exists.mp hfind
  obtain ⟨hid, pre, mid, rfl, hpre⟩ := List.find?_eq_some_iff_append.mp hq
  have hid : q.id = host.id := by simpa using hid
  have hfirst : editHost q.id renamed (.of (pre ++ q :: (mid ++ host :: after))) =
      (renamed q).map fun hs => .of (pre ++ (hs ++ (mid ++ host :: after))) :=
    editHost_at (by simpa [hid] using hpre) renamed
  have hlast := h renamed
  rw [hid] at hfirst
  simp only [List.append_assoc, List.cons_append] at hfirst hlast
  rw [hfirst] at hlast
  simp only [renamed, Except.map, Except.ok.injEq, Slice.of.injEq, List.append_cancel_left_eq,
    List.cons_append, List.cons.injEq] at hlast
  have hlength := congrArg (fun h => h.name.length) hlast.1
  simp at hlength

end

/-- A request gets its own host back, and its id addresses this host, exactly if the host is
fresh where it is appended. -/
theorem creation_returns_iff {s : WorkspaceStore} {file : File} {labels : List CreationLabel}
    {c : Creations} (hrun : (creations s file).run labels = some c) {i : Nat}
    {before : List Host} {host answer : Host}
    (hi : c.requests i = .answered before host (.ok answer)) :
    ReturnsNew (hostsOf c.file) before host answer ↔ Fresh before host := by
  have hplaced := creations_placed hrun i
  rw [hi] at hplaced
  obtain ⟨⟨after, hafter⟩, hfind⟩ := hplaced
  have hfind := hfind answer rfl
  rw [List.append_assoc, List.singleton_append] at hafter
  constructor
  · rintro ⟨rfl, after', hafter', haddressed⟩
    rw [hafter'] at hafter
    rw [List.append_cancel_left_eq, List.cons.injEq] at hafter
    obtain ⟨-, rfl⟩ := hafter
    have hid : ∀ h ∈ before, h.id ≠ answer.id := by
      intro h hmem heq
      rw [hafter'] at haddressed
      exact not_addressed ⟨h, hmem, heq⟩ haddressed
    intro h hmem
    refine ⟨fun hsame => ?_, hid h hmem⟩
    -- the first of the others with the name and the address would be the answer
    have hsome : (before.find? fun h => h.host = answer.host ∧ h.name = answer.name).isSome := by
      rw [List.find?_isSome]
      exact ⟨h, hmem, by simpa using hsame⟩
    obtain ⟨q, hq⟩ := Option.isSome_iff_exists.mp hsome
    rw [List.find?_append, hq, Option.some_or, Option.some_inj] at hfind
    exact hid q (List.mem_of_find?_eq_some hq) (by rw [hfind])
  · intro hfresh
    have hown : answer = host := by
      have hnone : before.find? (fun h => h.host = host.host ∧ h.name = host.name) = none := by
        rw [List.find?_eq_none]
        intro h hmem
        simpa using (hfresh h hmem).1
      rw [List.find?_append, hnone, Option.none_or] at hfind
      simpa [eq_comm] using hfind
    refine ⟨hown, after, hafter.symm, ?_⟩
    intro f
    rw [hown, ← hafter]
    exact editHost_at (fun h hmem => (hfresh h hmem).2) f

def webRequest : HostCreateRequest := ⟨"web", "10.0.0.5", 0, "", ""⟩

def clock (unixNano : Int) : World := { quiet with unixNano, unixMilli := 1 }

def webHost (id : String) : Host := ⟨id, "web", "10.0.0.5", 22, "root", "", 1⟩

/-- Two requests for the same host, one between the sections of the other. -/
def twoRequests : List CreationLabel :=
  [.create 0 webRequest 1 (clock 100), .create 1 webRequest 1 (clock 200), .answer 1 quiet,
    .answer 0 quiet]

def dbHost : Host := ⟨"host-300", "db", "10.0.0.6", 22, "root", "", 1⟩

def threeRequests : List CreationLabel :=
  twoRequests ++ [.create 2 ⟨"db", "10.0.0.6", 0, "", ""⟩ 1 (clock 300), .answer 2 quiet]

theorem creation_returns_third : ∃ c, (creations plainStore .missing).run threeRequests = some c ∧
    ReturnsNew (hostsOf c.file) [webHost "host-100", webHost "host-200"] dbHost dbHost := by
  have hfresh : Fresh [webHost "host-100", webHost "host-200"] dbHost := by
    unfold Fresh
    decide
  exact ⟨_, rfl, (creation_returns_iff (i := 2)
    (show (creations plainStore .missing).run threeRequests = some _ from rfl) rfl).mpr hfresh⟩

/-- The second request gets the host of the first. -/
theorem other_host_returned : ∃ c, (creations plainStore .missing).run twoRequests = some c ∧
    c.requests 1 = .answered [webHost "host-100"] (webHost "host-200")
      (.ok (webHost "host-100")) ∧
    ¬ ReturnsNew (hostsOf c.file) [webHost "host-100"] (webHost "host-200")
      (webHost "host-100") := by
  refine ⟨_, rfl, rfl, fun h => ?_⟩
  have hown := h.own
  revert hown
  decide

end LearnPg.Api.HostCreation
