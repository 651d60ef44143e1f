import LearnPg.Collector.Probes
import Mathlib.Data.List.Infix

/-! Which transaction events one thread's hits cause. -/
namespace LearnPg.Collector
open Wal

namespace XactHit

def hit : XactHit → Hit
  | start hit | commit hit | abort hit | lockEntry hit | lockReturn hit => hit

def IsEnd : XactHit → Prop
  | commit _ | abort _ => True
  | _ => False

def IsLock : XactHit → Prop
  | lockEntry _ | lockReturn _ => True
  | _ => False

end XactHit

def xactAfter (hits : List XactHit) (xact : Option ThreadXact) : Option ThreadXact :=
  hits.foldl (fun xact h => (h.run xact).1) xact

def xactEvents (xact : Option ThreadXact) : List XactHit → List Event
  | [] => []
  | h :: hits => (h.run xact).2 ++ xactEvents (h.run xact).1 hits

def Event.hasState (state : Vector UInt8 16) (e : Event) : Bool :=
  match e.payload with
  | .xact p => p.state == state
  | _ => false

def isBegin (e : Event) : Bool := e.hasState beginText
def isEnd (e : Event) : Bool := e.hasState commitText || e.hasState abortText

/-- A start's end is the first end after it with lock calls between them at most.
The two cause one begin and one end event, and no end event comes without a start. -/
structure PairsUp (hits : List XactHit) : Prop where
  each : ∀ pre hit mid fin post, hits = pre ++ .start hit :: (mid ++ fin :: post) →
    (∀ h ∈ mid, h.IsLock) → fin.IsEnd →
    let events := xactEvents (xactAfter pre none) (.start hit :: (mid ++ [fin]))
    events.countP isBegin = 1 ∧ events.countP isEnd = 1
  stray : ∀ pre h post, hits = pre ++ h :: post →
    ∀ e ∈ (h.run (xactAfter pre none)).2, isEnd e = true →
      h.IsEnd ∧ ∃ before hit mid, pre = before ++ .start hit :: mid ∧ ∀ h ∈ mid, h.IsLock

/-- No started transaction ends, and none ends right where a lock call began. -/
structure NeverEnds (hits : List XactHit) : Prop where
  started : ∀ pre hit mid fin post, hits = pre ++ .start hit :: (mid ++ fin :: post) →
    (∀ h ∈ mid, h.IsLock) → ¬ fin.IsEnd
  locked : ∀ pre hit fin post, hits = pre ++ .lockEntry hit :: fin :: post → ¬ fin.IsEnd

/-! What one hit does. -/

theorem submit_mem {hit : Hit} {payload : Payload} {e : Event} (h : e ∈ submit hit payload) :
    e = newEvent hit payload := by
  rw [submit] at h
  split at h
  · exact List.mem_singleton.mp h
  · cases h

theorem probeXactEnd_room (state : Vector UInt8 16) {hit : Hit} (hroom : hit.room = true) :
    ∀ xact, ∃ events, probeXactEnd state hit xact = (none, events) ∧
      (xact.isSome = true → events ≠ []) ∧
      ∀ e ∈ events, xact.isSome = true ∧ ∀ other, e.hasState other = (state == other)
  | none => ⟨[], rfl, nofun, List.forall_mem_nil _⟩
  | some _ =>
    ⟨_, if_pos hroom, fun _ => List.cons_ne_nil _ _,
      List.forall_mem_singleton.mpr ⟨rfl, fun _ => rfl⟩⟩

/-- An end takes the entry. It reports itself, and no begin, if it found one. -/
theorem run_end {h : XactHit} (hend : h.IsEnd) (hroom : h.hit.room = true)
    (xact : Option ThreadXact) : ∃ events, h.run xact = (none, events) ∧
      (xact.isSome = true → events ≠ []) ∧
      ∀ e ∈ events, xact.isSome = true ∧ isBegin e = false ∧ isEnd e = true := by
  have hwhich : ∃ state, h.run xact = probeXactEnd state h.hit xact ∧
      (state = commitText ∨ state = abortText) := by
    cases h with
    | commit hit => exact ⟨commitText, rfl, .inl rfl⟩
    | abort hit => exact ⟨abortText, rfl, .inr rfl⟩
    | start hit => cases hend
    | lockEntry hit => cases hend
    | lockReturn hit => cases hend
  obtain ⟨state, hrun, hstate⟩ := hwhich
  obtain ⟨events, hevents, hne, hall⟩ := probeXactEnd_room state hroom xact
  refine ⟨events, hrun.trans hevents, hne, fun e he => ?_⟩
  obtain ⟨hsome, hother⟩ := hall e he
  rw [isBegin, isEnd, hother, hother, hother]
  rcases hstate with rfl | rfl
  · exact ⟨hsome, by decide, by decide⟩
  · exact ⟨hsome, by decide, by decide⟩

theorem run_other {h : XactHit} (hend : ¬ h.IsEnd) (xact : Option ThreadXact) :
    ∀ e ∈ (h.run xact).2, isBegin e = false ∧ isEnd e = false := by
  cases h with
  | start hit => exact List.forall_mem_nil _
  | lockEntry hit => exact List.forall_mem_nil _
  | lockReturn hit =>
    intro e he
    rw [submit_mem he]
    exact ⟨rfl, rfl⟩
  | commit hit => exact absurd trivial hend
  | abort hit => exact absurd trivial hend

theorem run_isBegin {h : XactHit} (hroom : h.hit.room = true) (xact : Option ThreadXact) :
    ∀ e ∈ (h.run xact).2, isBegin e = false := by
  by_cases hend : h.IsEnd
  · obtain ⟨events, hrun, -, hall⟩ := run_end hend hroom xact
    rw [hrun]
    exact fun e he => (hall e he).2.1
  · exact fun e he => (run_other hend xact e he).1

theorem xactAfter_snoc (pre : List XactHit) (h : XactHit) (xact : Option ThreadXact) :
    xactAfter (pre ++ [h]) xact = (h.run (xactAfter pre xact)).1 := by
  rw [xactAfter, List.foldl_append]
  rfl

theorem countP_isBegin (hits : List XactHit) (hroom : ∀ h ∈ hits, h.hit.room = true)
    (xact : Option ThreadXact) : (xactEvents xact hits).countP isBegin = 0 := by
  induction hits generalizing xact with
  | nil => rfl
  | cons h hits ih =>
    obtain ⟨hhit, hhits⟩ := List.forall_mem_cons.mp hroom
    rw [xactEvents, List.countP_append, ih hhits, List.countP_eq_zero.mpr]
    intro e he
    rw [run_isBegin hhit xact e he]
    exact Bool.false_ne_true

theorem xactAfter_isSome {pre : List XactHit} (hroom : ∀ h ∈ pre, h.hit.room = true)
    (hsome : (xactAfter pre none).isSome = true) :
    ∃ before hit, pre = before ++ [.start hit] ∨ pre = before ++ [.lockEntry hit] := by
  rcases List.eq_nil_or_concat pre with rfl | ⟨before, last, rfl⟩
  · cases hsome
  · rw [List.concat_eq_append] at hroom hsome ⊢
    rw [xactAfter_snoc] at hsome
    have hlast := hroom last (List.mem_append_right _ (List.mem_singleton_self _))
    by_cases hend : last.IsEnd
    · obtain ⟨events, hrun, -⟩ := run_end hend hlast (xactAfter before none)
      rw [hrun] at hsome
      cases hsome
    · cases last with
      | start hit => exact ⟨before, hit, .inl rfl⟩
      | lockEntry hit => exact ⟨before, hit, .inr rfl⟩
      | lockReturn hit => cases hsome
      | commit hit => exact absurd trivial hend
      | abort hit => exact absurd trivial hend

/-- Whether an end is reported depends on the hit right before it alone: a start, or
a lock's entry, which passes for one. -/
theorem end_reported_iff {pre : List XactHit} {fin : XactHit}
    (hroom : ∀ h ∈ pre, h.hit.room = true) (hfinRoom : fin.hit.room = true) (hfin : fin.IsEnd) :
    (∃ e ∈ (fin.run (xactAfter pre none)).2, isEnd e = true) ↔
      ∃ before hit, pre = before ++ [.start hit] ∨ pre = before ++ [.lockEntry hit] := by
  obtain ⟨events, hrun, hne, hall⟩ := run_end hfin hfinRoom (xactAfter pre none)
  rw [hrun]
  constructor
  · intro ⟨e, he, _⟩
    exact xactAfter_isSome hroom (hall e he).1
  · intro hbefore
    have hsome : (xactAfter pre none).isSome = true := by
      obtain ⟨before, hit, rfl | rfl⟩ := hbefore <;> (rw [xactAfter_snoc]; rfl)
    obtain ⟨e, he⟩ := List.exists_mem_of_ne_nil _ (hne hsome)
    exact ⟨e, he, (hall e he).2.2⟩

/-- Transactions are paired with their events exactly as long as none of them ends:
a start is never reported, and a lock's entry passes for one. -/
theorem pairsUp_iff (hits : List XactHit) (hroom : ∀ h ∈ hits, h.hit.room = true) :
    PairsUp hits ↔ NeverEnds hits := by
  have hsplitRoom : ∀ {pre fin post}, hits = pre ++ fin :: post →
      (∀ h ∈ pre, h.hit.room = true) ∧ fin.hit.room = true := by
    intro pre fin post heq
    exact ⟨fun h hh => hroom h (heq ▸ List.mem_append_left _ hh),
      hroom fin (heq ▸ List.mem_append_right _ List.mem_cons_self)⟩
  constructor
  · intro h
    have hstarted : ∀ pre hit mid fin post, hits = pre ++ .start hit :: (mid ++ fin :: post) →
        (∀ h ∈ mid, h.IsLock) → ¬ fin.IsEnd := by
      intro pre hit mid fin post heq hmid hfin
      obtain ⟨hbegin, -⟩ := h.each pre hit mid fin post heq hmid hfin
      rw [countP_isBegin] at hbegin
      · cases hbegin
      · intro g hg
        apply hroom
        rw [heq]
        simp only [List.mem_cons, List.mem_append, List.not_mem_nil, or_false] at hg ⊢
        tauto
    refine ⟨hstarted, fun pre hit fin post heq hfin => ?_⟩
    have hsplit : hits = (pre ++ [.lockEntry hit]) ++ fin :: post := by
      rw [heq, List.append_assoc, List.singleton_append]
    obtain ⟨hpre, hlast⟩ := hsplitRoom hsplit
    obtain ⟨e, he, hend⟩ := (end_reported_iff hpre hlast hfin).mpr ⟨pre, hit, .inr rfl⟩
    obtain ⟨-, before, other, mid, hbefore, hmid⟩ := h.stray _ fin post hsplit e he hend
    refine hstarted before other mid fin post ?_ hmid hfin
    rw [hsplit, hbefore, List.append_assoc, List.cons_append]
  · intro h
    refine ⟨fun pre hit mid fin post heq hmid hfin => ?_, fun pre fin post heq e he hend => ?_⟩
    · exact absurd hfin (h.started pre hit mid fin post heq hmid)
    · have hfin : fin.IsEnd := by
        by_contra hother
        rw [(run_other hother _ e he).2] at hend
        cases hend
      obtain ⟨hpre, hlast⟩ := hsplitRoom heq
      obtain ⟨before, hit, rfl | rfl⟩ := (end_reported_iff hpre hlast hfin).mp ⟨e, he, hend⟩
      · exact absurd hfin (h.started before hit [] fin post (by simpa using heq)
          (List.forall_mem_nil _))
      · exact absurd hfin (h.locked before hit fin post (by simpa using heq))

/-- A hit of the thread 7, with room in the ring buffer. -/
def plainHit : Hit where
  pidTgid := 7
  ktimeNs := 0
  regs := ⟨0, 0, 0, 0⟩
  room := true

/-- A lock is taken and the transaction, whose start was missed, commits; the next one starts and
takes a lock. -/
def missedStart : List XactHit :=
  [.lockEntry plainHit, .lockReturn plainHit, .commit plainHit, .start plainHit,
    .lockEntry plainHit, .lockReturn plainHit]

theorem missedStart_neverEnds : NeverEnds missedStart where
  started pre hit mid fin post heq _ hfin := by
    have htail : .start hit :: (mid ++ fin :: post) ∈ missedStart.tails :=
      (List.mem_tails _ _).mpr ⟨pre, heq.symm⟩
    simp only [missedStart, List.tails, List.mem_cons, List.cons.injEq, reduceCtorEq, false_and,
      false_or, List.not_mem_nil, or_false] at htail
    have hmem : fin ∈ mid ++ fin :: post := List.mem_append_right _ List.mem_cons_self
    rw [htail.2] at hmem
    rcases List.mem_cons.mp hmem with rfl | hmem
    · exact hfin
    · cases List.mem_singleton.mp hmem
      exact hfin
  locked pre hit fin post heq hfin := by
    have htail : .lockEntry hit :: fin :: post ∈ missedStart.tails :=
      (List.mem_tails _ _).mpr ⟨pre, heq.symm⟩
    simp only [missedStart, List.tails, List.mem_cons, List.cons.injEq, reduceCtorEq, false_and,
      false_or, List.not_mem_nil, or_false] at htail
    rcases htail with ⟨-, rfl, -⟩ | ⟨-, rfl, -⟩ <;> exact hfin

theorem pairsUp_iff_missedStart :
    PairsUp missedStart ∧ (xactEvents none missedStart).length = 2 :=
  ⟨(pairsUp_iff _ (by decide)).mpr missedStart_neverEnds, by decide⟩

/-- A transaction that starts and commits causes no begin event. -/
theorem not_pairsUp_commit : ¬ PairsUp [.start plainHit, .commit plainHit] := by
  intro h
  obtain ⟨hbegin, -⟩ := h.each [] plainHit [] (.commit plainHit) [] rfl (List.forall_mem_nil _)
    trivial
  revert hbegin
  decide

end LearnPg.Collector
