import LearnPg.Basis.Runs
import Mathlib.Data.Finset.Basic

/-! The ports that the provision service gives to instances that ask for none. -/
namespace LearnPg.Provision.Allocation

open Basis.Runs

structure ErrPortConflict where
  port : Nat

def ErrPortConflict.error (e : ErrPortConflict) : String :=
  "port " ++ toString e.port ++ " is already in use"

/-- Of its fields the one that the search reads. -/
structure Service where
  defaultPort : Nat

def newService : Service := ⟨5432⟩

/-- `net.Listen` refuses a port that is bound, and numbers that no port has. -/
def isPortAvailable (bound : Finset Nat) (port : Nat) : Bool :=
  decide (port ≤ 65535) && decide (port ∉ bound)

/-- The loop over as many ports: those it tests, and the one it finds. -/
def tryFrom (bound : Finset Nat) : Nat → Nat → List Nat × Option Nat
  | _, 0 => ([], none)
  | port, n + 1 =>
    if isPortAvailable bound port then ([port], some port)
    else
      let rest := tryFrom bound (port + 1) n
      (port :: rest.1, rest.2)

/-- A call, which tests no port twice; `bound` are those that are bound when it tests them. -/
structure Call where
  bound : Finset Nat
  tested : List Nat
  result : Except String Nat

/-- It runs under the lock of the service. -/
def findAvailablePort (bound : Finset Nat) (s : Service) : Call × Service :=
  let search := tryFrom bound s.defaultPort 100
  match search.2 with
  | some port => (⟨bound, search.1, .ok port⟩, { s with defaultPort := port + 1 })
  | none => (⟨bound, search.1, .error (ErrPortConflict.error ⟨0⟩)⟩, s)

structure State where
  service : Service
  calls : List Call

/-- One call after another, each with the ports that other processes have bound. -/
def allocator : Machine State (Finset Nat) where
  init := ⟨newService, []⟩
  step st bound :=
    let answer := findAvailablePort bound st.service
    some ⟨answer.2, st.calls ++ [answer.1]⟩

/-- No port is given twice, each could be bound, and a call fails only if all the ports that it
tested were taken. -/
structure Allocates (Taken : Finset Nat → Nat → Prop) (calls : List Call) : Prop where
  distinct : calls.Pairwise fun a b => ∀ port, a.result = .ok port → b.result ≠ .ok port
  bindable : ∀ call ∈ calls, ∀ port, call.result = .ok port →
    port ∈ call.tested ∧ port ≤ 65535 ∧ port ∉ call.bound
  refused : ∀ call ∈ calls, ∀ err, call.result = .error err →
    ∃ first, call.tested = List.range' first 100 ∧ ∀ port ∈ call.tested, Taken call.bound port

def Unavailable (bound : Finset Nat) (port : Nat) : Prop := port ∈ bound ∨ 65535 < port

def Call.succeeded (call : Call) : Bool := call.result.toBool

section

variable {bound : Finset Nat} {port n : Nat}

theorem isPortAvailable_iff : isPortAvailable bound port = true ↔ port ≤ 65535 ∧ port ∉ bound := by
  simp [isPortAvailable]

theorem unavailable_iff : Unavailable bound port ↔ ¬ isPortAvailable bound port = true := by
  rw [isPortAvailable_iff, not_and, not_not, Unavailable]
  by_cases h : port ≤ 65535
  · simp [h]
  · simp [h, not_le.mp h]

theorem tryFrom_some {found : Nat} (h : (tryFrom bound port n).2 = some found) :
    port ≤ found ∧ found ∈ (tryFrom bound port n).1 ∧ isPortAvailable bound found = true := by
  induction n generalizing port with
  | zero => cases h
  | succ n ih =>
    unfold tryFrom at h ⊢
    split at h
    next havailable =>
      cases h
      rw [if_pos havailable]
      exact ⟨le_refl _, List.mem_singleton_self _, havailable⟩
    next hnot =>
      obtain ⟨hle, hmem, havailable⟩ := ih h
      rw [if_neg hnot]
      exact ⟨by omega, List.mem_cons_of_mem port hmem, havailable⟩

theorem tryFrom_none (h : (tryFrom bound port n).2 = none) :
    (tryFrom bound port n).1 = List.range' port n ∧
      ∀ p ∈ (tryFrom bound port n).1, Unavailable bound p := by
  induction n generalizing port with
  | zero => exact ⟨rfl, List.forall_mem_nil _⟩
  | succ n ih =>
    unfold tryFrom at h ⊢
    split at h
    next => cases h
    next hnot =>
      obtain ⟨htested, hall⟩ := ih h
      rw [if_neg hnot]
      refine ⟨?_, List.forall_mem_cons.mpr ⟨unavailable_iff.mpr hnot, hall⟩⟩
      dsimp only
      rw [htested, List.range'_succ]

/-- A call gives a port from the cursor on and moves the cursor behind it, or finds none and
leaves the cursor where it is. -/
theorem findAvailablePort_cases (bound : Finset Nat) (s : Service) :
    (∃ tested port, findAvailablePort bound s = (⟨bound, tested, .ok port⟩, ⟨port + 1⟩) ∧
      s.defaultPort ≤ port ∧ port ∈ tested ∧ port ≤ 65535 ∧ port ∉ bound) ∨
    ∃ err, findAvailablePort bound s =
        (⟨bound, List.range' s.defaultPort 100, .error err⟩, s) ∧
      ∀ port ∈ List.range' s.defaultPort 100, Unavailable bound port := by
  unfold findAvailablePort
  dsimp only
  split
  next port hsome =>
    obtain ⟨hle, hmem, havailable⟩ := tryFrom_some hsome
    exact .inl ⟨_, port, rfl, hle, hmem, isPortAvailable_iff.mp havailable⟩
  next hnone =>
    obtain ⟨htested, hall⟩ := tryFrom_none hnone
    rw [htested] at hall ⊢
    exact .inr ⟨_, rfl, hall⟩

variable {Taken : Finset Nat → Nat → Prop} {calls : List Call} {tested : List Nat}

theorem Allocates.give (h : Allocates Taken calls) (hgone : ∀ call ∈ calls, call.result ≠ .ok port)
    (hmem : port ∈ tested) (hmax : port ≤ 65535) (hfree : port ∉ bound) :
    Allocates Taken (calls ++ [⟨bound, tested, .ok port⟩]) := by
  refine ⟨?_, ?_, ?_⟩
  · refine List.pairwise_append.mpr ⟨h.distinct, List.pairwise_singleton _ _, ?_⟩
    intro call hcall last hlast p hp heq
    rw [List.mem_singleton.mp hlast] at heq
    cases heq
    exact hgone call hcall hp
  · refine List.forall_mem_append.mpr ⟨h.bindable, List.forall_mem_singleton.mpr ?_⟩
    intro p hp
    cases hp
    exact ⟨hmem, hmax, hfree⟩
  · exact List.forall_mem_append.mpr ⟨h.refused, List.forall_mem_singleton.mpr nofun⟩

theorem Allocates.refuse {first : Nat} {err : String} (h : Allocates Taken calls)
    (hall : ∀ port ∈ List.range' first 100, Taken bound port) :
    Allocates Taken (calls ++ [⟨bound, List.range' first 100, .error err⟩]) := by
  refine ⟨?_, ?_, ?_⟩
  · refine List.pairwise_append.mpr ⟨h.distinct, List.pairwise_singleton _ _, ?_⟩
    intro call _ last hlast p _
    rw [List.mem_singleton.mp hlast]
    nofun
  · exact List.forall_mem_append.mpr ⟨h.bindable, List.forall_mem_singleton.mpr nofun⟩
  · refine List.forall_mem_append.mpr ⟨h.refused, List.forall_mem_singleton.mpr ?_⟩
    exact fun _ _ => ⟨first, rfl, hall⟩

end

/-- The cursor is behind the ports given, by one for each of them at least, and not past the
number behind the last port. -/
structure Sound (st : State) : Prop where
  allocates : Allocates Unavailable st.calls
  below : ∀ call ∈ st.calls, ∀ port, call.result = .ok port → port < st.service.defaultPort
  counted : st.calls.countP Call.succeeded + 5432 ≤ st.service.defaultPort
  bounded : st.service.defaultPort ≤ 65536

section

variable {st st' : State} {bound : Finset Nat} {bounds : List (Finset Nat)}

theorem sound_init : Sound allocator.init :=
  ⟨⟨.nil, List.forall_mem_nil _, List.forall_mem_nil _⟩, List.forall_mem_nil _, by decide, by decide⟩

theorem Sound.step (h : Sound st) (hstep : allocator.step st bound = some st') : Sound st' := by
  cases hstep
  obtain ⟨tested, port, heq, hle, hmem, hmax, hfree⟩ | ⟨err, heq, hall⟩ :=
    findAvailablePort_cases bound st.service
  · rw [heq]
    have hgone : ∀ call ∈ st.calls, call.result ≠ .ok port := fun call hcall hgiven => by
      have hlt := h.below call hcall port hgiven
      omega
    refine ⟨h.allocates.give hgone hmem hmax hfree, ?_, ?_, Nat.succ_le_succ hmax⟩
    · refine List.forall_mem_append.mpr ⟨fun call hcall p hp => ?_,
        List.forall_mem_singleton.mpr fun p hp => ?_⟩
      · have hlt := h.below call hcall p hp
        dsimp only
        omega
      · cases hp
        exact Nat.lt_succ_self port
    · have hone : [Call.mk bound tested (.ok port)].countP Call.succeeded = 1 := rfl
      have hcounted := h.counted
      rw [List.countP_append, hone]
      dsimp only
      omega
  · rw [heq]
    refine ⟨h.allocates.refuse hall, ?_, ?_, h.bounded⟩
    · exact List.forall_mem_append.mpr ⟨h.below, List.forall_mem_singleton.mpr nofun⟩
    · rw [List.countP_append]
      exact h.counted

theorem run_sound (hrun : allocator.run bounds = some st) : Sound st :=
  run_keeps sound_init (fun _ _ _ h => h.step) hrun

/-- However the ports are bound, the service finds at most so many. -/
theorem succeeded_le (hrun : allocator.run bounds = some st) :
    st.calls.countP Call.succeeded ≤ 60104 := by
  have hcounted := (run_sound hrun).counted
  have hbounded := (run_sound hrun).bounded
  omega

theorem exists_run (bounds : List (Finset Nat)) :
    ∃ st, allocator.run bounds = some st ∧ st.calls.map Call.bound = bounds := by
  induction bounds using List.reverseRecOn with
  | nil => exact ⟨_, rfl, rfl⟩
  | append_singleton bounds bound ih =>
    obtain ⟨st, hrun, hcalls⟩ := ih
    refine ⟨_, (run_concat hrun).trans rfl, ?_⟩
    have hbound : (findAvailablePort bound st.service).1.bound = bound := by
      obtain ⟨tested, port, heq, -⟩ | ⟨err, heq, -⟩ := findAvailablePort_cases bound st.service
      · rw [heq]
      · rw [heq]
    rw [List.map_append, hcalls, List.map_singleton, hbound]

/-- A call that fails has tested ports that were bound, and numbers behind the last port. -/
theorem allocates_of_run (hrun : allocator.run bounds = some st) : Allocates Unavailable st.calls :=
  (run_sound hrun).allocates

end

/-- The first port is taken when it is asked for, and free again after it. -/
theorem allocates_twice : ∃ st, allocator.run [{5432}, ∅] = some st ∧
    st.calls.map Call.result = [.ok 5433, .ok 5434] ∧ Allocates Unavailable st.calls :=
  ⟨_, rfl, rfl, @allocates_of_run _ [{5432}, ∅] rfl⟩

/-- Where nothing is bound, the call after all ports from 5432 on were given still fails. -/
theorem exhausted_not_allocates : ∃ st, allocator.run (List.replicate 60105 ∅) = some st ∧
    ¬ Allocates (fun bound port => port ∈ bound) st.calls := by
  obtain ⟨st, hrun, hcalls⟩ := exists_run (List.replicate 60105 ∅)
  refine ⟨st, hrun, fun h => ?_⟩
  have hlength : st.calls.length = 60105 := by
    rw [← List.length_map, hcalls, List.length_replicate]
  have hlt : st.calls.countP Call.succeeded < st.calls.length := by
    have hle := succeeded_le hrun
    omega
  obtain ⟨call, hcall, hfailed⟩ : ∃ call ∈ st.calls, ¬ call.succeeded = true := by
    by_contra hnone
    push Not at hnone
    exact absurd (List.countP_eq_length.mpr hnone) (Nat.ne_of_lt hlt)
  have hempty : call.bound = ∅ := by
    apply List.eq_of_mem_replicate (n := 60105)
    rw [← hcalls]
    exact List.mem_map_of_mem hcall
  cases hresult : call.result with
  | ok port =>
    rw [Call.succeeded, hresult] at hfailed
    exact hfailed rfl
  | error err =>
    obtain ⟨first, htested, hall⟩ := h.refused call hcall err hresult
    have hmem : first ∈ call.tested := by
      rw [htested]
      exact List.mem_range'_1.mpr ⟨le_refl first, by omega⟩
    have htaken := hall first hmem
    rw [hempty] at htaken
    exact absurd htaken (Finset.notMem_empty first)

end LearnPg.Provision.Allocation
