import LearnPg.Collector.Threads
import Mathlib.Algebra.GroupWithZero.Nat

/-! What the probes submit comes out of the ring buffer in its order, is decoded and counted, and
is refused only while the buffer is full of records that the reader has not consumed. -/
namespace LearnPg.Collector.Kernel

open Wal Basis.Runs

/-! The counters. -/

theorem probeIdx_inj {kind kind' : EventKind} (h : probeIdx kind = probeIdx kind') :
    kind = kind' := by
  cases kind <;> cases kind' <;> first | rfl | cases h

def countOf (submitted : List (Nat × Event)) (cpu : Nat) (kind : EventKind) : Nat :=
  submitted.countP fun x => x.1 = cpu ∧ x.2.payload.kind = kind

/-- Each CPU's counter of a kind is the number of events of this kind that it submitted. -/
structure Counted (counts : ProbeCounts) (submitted : List (Nat × Event)) : Prop where
  value : ∀ cpu kind, counts.value cpu (probeIdx kind) = UInt64.ofNat (countOf submitted cpu kind)
  absent : ∀ kind, counts.present (probeIdx kind) = false →
    ∀ x ∈ submitted, x.2.payload.kind ≠ kind

section

variable {counts : ProbeCounts} {submitted : List (Nat × Event)}

theorem countOf_concat (cpu cpu' : Nat) (kind : EventKind) (e : Event) :
    countOf (submitted ++ [(cpu, e)]) cpu' kind =
      countOf submitted cpu' kind + if cpu = cpu' ∧ e.payload.kind = kind then 1 else 0 := by
  simp [countOf, List.countP_append, List.countP_cons]

theorem countOf_absent {kind : EventKind} (h : ∀ x ∈ submitted, x.2.payload.kind ≠ kind)
    (cpu : Nat) : countOf submitted cpu kind = 0 :=
  List.countP_eq_zero.mpr fun x hx => by simp [h x hx]

theorem Counted.probeHit (h : Counted counts submitted) (cpu : Nat) (e : Event) :
    Counted (counts.probeHit cpu (probeIdx e.payload.kind)) (submitted ++ [(cpu, e)]) := by
  unfold ProbeCounts.probeHit
  split
  next hpresent =>
    refine ⟨fun cpu' kind => ?_, fun kind habsent x hx => ?_⟩
    · dsimp only
      rw [countOf_concat, UInt64.ofNat_add, ← h.value]
      by_cases hcpu : cpu' = cpu
      · subst hcpu
        rw [Function.update_self]
        by_cases hkind : e.payload.kind = kind
        · subst hkind
          rw [Function.update_self, if_pos ⟨rfl, rfl⟩]
          rfl
        · have hne : probeIdx kind ≠ probeIdx e.payload.kind :=
            fun heq => hkind (probeIdx_inj heq).symm
          rw [Function.update_of_ne hne, if_neg fun hboth => hkind hboth.2]
          exact (UInt64.add_zero _).symm
      · rw [Function.update_of_ne hcpu, if_neg fun hboth => hcpu hboth.1.symm]
        exact (UInt64.add_zero _).symm
    · rcases List.mem_append.mp hx with hx | hx
      · exact h.absent kind habsent x hx
      · rw [List.mem_singleton.mp hx]
        rintro rfl
        rw [hpresent] at habsent
        cases habsent
  next hpresent =>
    have hnone := h.absent e.payload.kind (Bool.eq_false_iff.mpr hpresent)
    refine ⟨fun cpu' kind => ?_, fun kind habsent x hx => ?_⟩
    · dsimp only
      rw [countOf_concat]
      by_cases hkind : e.payload.kind = kind
      · subst hkind
        rw [countOf_absent hnone, Function.update_self, Nat.zero_add]
        by_cases hcpu : cpu' = cpu
        · rw [if_pos hcpu, if_pos ⟨hcpu.symm, rfl⟩]
          rfl
        · rw [if_neg hcpu, if_neg fun hboth => hcpu hboth.1.symm]
          rfl
      · have hne : probeIdx kind ≠ probeIdx e.payload.kind :=
          fun heq => hkind (probeIdx_inj heq).symm
        rw [Function.update_of_ne hne, if_neg fun hboth => hkind hboth.2]
        exact h.value cpu' kind
    · have hne : probeIdx kind ≠ probeIdx e.payload.kind := by
        intro heq
        dsimp only at habsent
        rw [heq, Function.update_self] at habsent
        cases habsent
      dsimp only at habsent
      rw [Function.update_of_ne hne] at habsent
      rcases List.mem_append.mp hx with hx | hx
      · exact h.absent kind habsent x hx
      · rw [List.mem_singleton.mp hx]
        rintro rfl
        exact hne rfl

end

/-! The buffer. -/

section

variable {Value : Type} {toValue : EventData → Option Value} {s t : State Value}
  {labels : List Label} {l : Label}

/-- The event that the reader hands on for a record. -/
structure Decodes (toValue : EventData → Option Value) (e : Event) (event : WsEvent Value) :
    Prop where
  eventType : event.eventType = e.payload.kind.eventType
  timestamp : event.timestamp = e.header.timestamp
  pid : event.pid = e.header.pid
  data : toValue (decoded e.payload) = some event.data

structure Accounts (toValue : EventData → Option Value) (s : State Value) : Prop where
  order : s.events = s.consumed ++ s.ring
  room : recordSize * s.ring.length < ringSize
  handed : List.Forall₂ (Decodes toValue) s.consumed s.handed
  counts : Counted s.counts s.submitted

theorem Accounts.submit {hit : Hit} {kinds : List EventKind} {es : List Event}
    (h : Accounts toValue s) (hsubmits : Submits hit kinds es) (hroom : hit.room = s.hasRoom)
    (cpu : Nat) : Accounts toValue (s.submit cpu es) := by
  rcases hsubmits with rfl | ⟨htrue, payload, -, rfl⟩
  · exact h
  · refine ⟨?_, ?_, h.handed, h.counts.probeHit cpu _⟩
    · rw [events_submit, h.order, List.append_assoc]
      rfl
    · rw [htrue] at hroom
      have hlt := of_decide_eq_true hroom.symm
      change recordSize * (s.ring ++ [_]).length < ringSize
      rw [List.length_append]
      simpa [Nat.mul_add] using hlt

theorem Accounts.step (htoValue : ∀ data, (toValue data).isSome) (h : Accounts toValue s)
    (hstep : step toValue s l = some t) : Accounts toValue t := by
  cases l with
  | wal cpu hit =>
    obtain ⟨hroom, heq⟩ := Option.ite_none_right_eq_some.mp hstep
    cases heq
    have hsubmits : Submits hit.hit walKinds (walArgs.output s.walArgs hit) := wal_submits hit _
    have hnext : Accounts toValue { s with walArgs := walArgs.step s.walArgs hit } :=
      ⟨h.order, h.room, h.handed, h.counts⟩
    exact hnext.submit hsubmits hroom cpu
  | xact cpu hit =>
    obtain ⟨hroom, heq⟩ := Option.ite_none_right_eq_some.mp hstep
    cases heq
    have hsubmits : Submits hit.hit xactKinds (threadXact.output s.threadXact hit) :=
      xact_submits hit _
    have hnext : Accounts toValue { s with threadXact := threadXact.step s.threadXact hit } :=
      ⟨h.order, h.room, h.handed, h.counts⟩
    exact hnext.submit hsubmits hroom cpu
  | buffer cpu hit =>
    obtain ⟨hroom, heq⟩ := Option.ite_none_right_eq_some.mp hstep
    cases heq
    have hsubmits : Submits hit.hit bufferKinds (threadBuf.output s.threadBuf hit) :=
      buffer_submits hit _
    have hnext : Accounts toValue { s with threadBuf := threadBuf.step s.threadBuf hit } :=
      ⟨h.order, h.room, h.handed, h.counts⟩
    exact hnext.submit hsubmits hroom cpu
  | read pad seq =>
    simp only [Kernel.step] at hstep
    split at hstep
    · cases hstep
    next e rest hring =>
      obtain ⟨value, hvalue⟩ := Option.isSome_iff_exists.mp (htoValue (decoded e.payload))
      have hparse := parseRawEvent_bytes toValue seq e pad
      rw [wsEvent, hvalue] at hparse
      rw [hparse] at hstep
      cases hstep
      refine ⟨?_, ?_, ?_, h.counts⟩
      · have horder := h.order
        rw [hring] at horder
        exact horder.trans (by simp)
      · have hroom := h.room
        rw [hring, List.length_cons, Nat.mul_add] at hroom
        exact Nat.lt_of_le_of_lt (Nat.le_add_right _ _) hroom
      · exact List.rel_append h.handed (.cons ⟨rfl, rfl, rfl, hvalue⟩ .nil)

theorem accounts_run (htoValue : ∀ data, (toValue data).isSome)
    (hrun : (kernel toValue).run labels = some s) : Accounts toValue s := by
  have hinit : Accounts toValue (kernel toValue).init :=
    ⟨rfl, (by decide : recordSize * 0 < ringSize), .nil,
      ⟨fun _ _ => rfl, fun _ _ _ hx => by cases hx⟩⟩
  exact run_keeps hinit (fun _ _ _ h hstep => h.step htoValue hstep) hrun

/-- The reader gets what the probes submit, all of it, in order and decoded; the buffer holds 2730
records at most and refuses one only then; and every CPU counts what it has submitted. -/
theorem ring_accounts (htoValue : ∀ data, (toValue data).isSome)
    (hrun : (kernel toValue).run labels = some s) :
    s.events = s.consumed ++ s.ring ∧ List.Forall₂ (Decodes toValue) s.consumed s.handed ∧
      s.ring.length ≤ 2730 ∧ (s.hasRoom = false ↔ s.ring.length = 2730) ∧
      ∀ cpu kind,
        s.counts.value cpu (probeIdx kind) = UInt64.ofNat (countOf s.submitted cpu kind) := by
  obtain ⟨horder, hroom, hhanded, hcounts⟩ := accounts_run htoValue hrun
  have hfull : s.hasRoom = false ↔ 262144 ≤ 96 * s.ring.length + 96 := by
    unfold State.hasRoom
    rw [decide_eq_false_iff_not, Nat.not_lt]
    exact Iff.rfl
  have hlt : 96 * s.ring.length < 262144 := hroom
  refine ⟨horder, hhanded, by omega, ?_, hcounts.value⟩
  rw [hfull]
  omega

end

def oneRead : List Label := twoThreads ++ [.read (fun _ => 0) 0]

theorem ring_accounts_oneRead : ∃ s : State Unit,
    (kernel fun _ => some ()).run oneRead = some s ∧ s.events = s.consumed ++ s.ring ∧
      s.consumed.length = 1 ∧ s.ring.length = 1 ∧ s.counts.value 1 (probeIdx .walInsert) = 1 := by
  have hfacts : ((kernel fun _ => some ()).run oneRead).map (fun s =>
      (s.consumed.length, s.ring.length, countOf s.submitted 1 .walInsert)) = some (1, 1, 1) := by
    decide
  obtain ⟨s, hrun, hs⟩ := Option.map_eq_some_iff.mp hfacts
  obtain ⟨hconsumed, hring, hcount⟩ : s.consumed.length = 1 ∧ s.ring.length = 1 ∧
      countOf s.submitted 1 .walInsert = 1 := by simpa using hs
  obtain ⟨horder, -, -, -, hcounts⟩ := ring_accounts (fun _ => rfl) hrun
  exact ⟨s, hrun, horder, hconsumed, hring, by rw [hcounts, hcount]; rfl⟩

end LearnPg.Collector.Kernel
