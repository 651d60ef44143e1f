import LearnPg.Collector.RingBuffer

/-! What the probes say of transactions: that one has ended and how, and nothing that tells which
one it was. -/
namespace LearnPg.Collector.Kernel

open Wal Basis.Slots

/-- The event says of no transaction which one it is. -/
def Nameless : Payload → Prop
  | .wal p => p.xid = 0
  | .buf _ => True
  | .xact p => p.xid = 0 ∧ p.topXid = 0 ∧ p.lsn = 0 ∧ p.vxid = Vector.replicate 32 0 ∧
      (p.state = commitText ∨ p.state = abortText)
  | .lock p => p.xid = 0

def NamelessArgs (args : WalArgs) : Prop := args.xid = 0

def NamelessXact (xact : ThreadXact) : Prop := xact.xid = 0 ∧ xact.topXid = 0

/-! The hits. -/

theorem submit_keeps {P : Event → Prop} {hit : Hit} {payload : Payload}
    (h : P (newEvent hit payload)) : ∀ e ∈ submit hit payload, P e := by
  intro e he
  rw [submit_mem he]
  exact h

theorem wal_nameless (h : WalHit) (args : Option WalArgs) (hargs : ∀ a ∈ args, NamelessArgs a) :
    (∀ a ∈ (h.run args).1, NamelessArgs a) ∧ ∀ e ∈ (h.run args).2, Nameless e.payload := by
  cases h with
  | heapEntry call relOid =>
    refine ⟨?_, List.forall_mem_nil _⟩
    rintro a ⟨⟩
    exact (call.probeEntry_spec relOid).1
  | xlogEntry hit =>
    refine ⟨?_, List.forall_mem_nil _⟩
    rintro a ⟨⟩
    cases args with
    | none => rfl
    | some existing =>
      have hxid : existing.xid = 0 := hargs existing rfl
      simp [NamelessArgs, probeXlogInsertEntry, hxid]
  | xlogReturn hit =>
    cases args with
    | none => exact ⟨forall_mem_none _, List.forall_mem_nil _⟩
    | some args => exact ⟨forall_mem_none _, submit_keeps (hargs args rfl)⟩

theorem xact_nameless (h : XactHit) (xact : Option ThreadXact)
    (hxact : ∀ x ∈ xact, NamelessXact x) :
    (∀ x ∈ (h.run xact).1, NamelessXact x) ∧ ∀ e ∈ (h.run xact).2, Nameless e.payload := by
  have hend {state : Vector UInt8 16} (hstate : state = commitText ∨ state = abortText)
      (hit : Hit) : (∀ x ∈ (probeXactEnd state hit xact).1, NamelessXact x) ∧
        ∀ e ∈ (probeXactEnd state hit xact).2, Nameless e.payload := by
    cases xact with
    | none => exact ⟨forall_mem_none _, List.forall_mem_nil _⟩
    | some x =>
      obtain ⟨hxid, htop⟩ := hxact x rfl
      unfold probeXactEnd
      dsimp only
      split
      · exact ⟨forall_mem_none _, List.forall_mem_singleton.mpr ⟨hxid, htop, rfl, rfl, hstate⟩⟩
      · exact ⟨hxact, List.forall_mem_nil _⟩
  cases h with
  | start | lockEntry =>
    refine ⟨?_, List.forall_mem_nil _⟩
    rintro x ⟨⟩
    exact ⟨rfl, rfl⟩
  | commit hit => exact hend (.inl rfl) hit
  | abort hit => exact hend (.inr rfl) hit
  | lockReturn hit => exact ⟨forall_mem_none _, submit_keeps rfl⟩

theorem buffer_nameless (h : BufferHit) (state : Option ThreadBuf) :
    ∀ e ∈ (h.run state).2, Nameless e.payload := by
  intro e he
  have hkind := ((buffer_submits h state).tid e he).2
  cases hpayload : e.payload with
  | buf => trivial
  | wal | xact | lock => simp [hpayload, bufferKinds, Payload.kind] at hkind

/-! The machine. -/

section

variable {Value : Type} {toValue : EventData → Option Value} {s t : State Value} {l : Label}

structure Anonymous (s : State Value) : Prop where
  walArgs : ∀ tid, ∀ args ∈ s.walArgs.lookup tid, NamelessArgs args
  threadXact : ∀ tid, ∀ xact ∈ s.threadXact.lookup tid, NamelessXact xact
  events : ∀ e ∈ s.events, Nameless e.payload

theorem anonymous_init : Anonymous (kernel toValue).init :=
  ⟨fun _ _ h => (nomatch h), fun _ _ h => (nomatch h), List.forall_mem_nil _⟩

theorem Anonymous.submit (h : Anonymous s) {es : List Event}
    (hes : ∀ e ∈ es, Nameless e.payload) (cpu : Nat) : Anonymous (s.submit cpu es) := by
  obtain ⟨-, -, hwal, hxact, -⟩ := submit_spec s cpu es
  refine ⟨?_, ?_, ?_⟩
  · rw [hwal]
    exact h.walArgs
  · rw [hxact]
    exact h.threadXact
  · rw [events_submit]
    exact List.forall_mem_append.mpr ⟨h.events, hes⟩

theorem Anonymous.step (h : Anonymous s) (hstep : step toValue s l = some t) : Anonymous t := by
  cases l with
  | wal cpu hit =>
    obtain ⟨-, heq⟩ := Option.ite_none_right_eq_some.mp hstep
    cases heq
    obtain ⟨hargs, hes⟩ := step_keeps (M := Kernel.walArgs) wal_nameless h.walArgs hit
    have hnext : Anonymous { s with walArgs := Kernel.walArgs.step s.walArgs hit } :=
      ⟨hargs, h.threadXact, h.events⟩
    exact hnext.submit hes cpu
  | xact cpu hit =>
    obtain ⟨-, heq⟩ := Option.ite_none_right_eq_some.mp hstep
    cases heq
    obtain ⟨hxact, hes⟩ := step_keeps (M := Kernel.threadXact) xact_nameless h.threadXact hit
    have hnext : Anonymous { s with threadXact := Kernel.threadXact.step s.threadXact hit } :=
      ⟨h.walArgs, hxact, h.events⟩
    exact hnext.submit hes cpu
  | buffer cpu hit =>
    obtain ⟨-, heq⟩ := Option.ite_none_right_eq_some.mp hstep
    cases heq
    have hnext : Anonymous { s with threadBuf := threadBuf.step s.threadBuf hit } :=
      ⟨h.walArgs, h.threadXact, h.events⟩
    exact hnext.submit (buffer_nameless hit _) cpu
  | read pad seq =>
    simp only [Kernel.step] at hstep
    split at hstep
    · cases hstep
    · split at hstep
      · cases hstep
        exact ⟨h.walArgs, h.threadXact, h.events⟩
      · cases hstep

end

end LearnPg.Collector.Kernel
