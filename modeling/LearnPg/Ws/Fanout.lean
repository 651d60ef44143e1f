import LearnPg.Ws.Stopping
import Mathlib.Data.List.Sublists

/-! What one client's read pump puts into the channel of another: the messages its connection
delivers, each once and in order, but for those it finds no room for or no such client. While
it goes through the clients it holds the read lock, and it has at most one message in hand. -/
namespace LearnPg.Ws.Fanout

open LearnPg.Basis.Channel LearnPg.Basis.Runs Hub Steps Stopping

variable {κ β : Type} [DecidableEq κ]

def deliveredBy (a : κ) : Label κ β → List Message
  | .readMessage c m => if c = a then [m] else []
  | _ => []

def delivered (a : κ) (ls : List (Label κ β)) : List Message := ls.flatMap (deliveredBy a)

def reader : Label κ β → Option κ
  | .readMessage c _ | .readError c | .rlockRead c | .forward c _ | .forwarded c => some c
  | _ => none

def gained (b : κ) (s t : State κ β) : List Message :=
  (t.send b).queue.drop (s.send b).queue.length

/-- What the read pump of `a` puts into the channel of `b`, each message with the number of
the delivery that it has in hand. -/
def forwardedTo [DecidableEq β] (a b : κ) : List (Label κ β) → List (Message × Nat) :=
  (hub κ β).log fun past s l t =>
    if reader l = some a then (gained b s t).map (·, (delivered a past).length - 1) else []

/-- The message that `a` has in hand, if `b` has not had its turn. -/
def outstanding (a b : κ) (s : State κ β) : List Message :=
  match s.readPump a with
  | .received m => [m]
  | .forwarding m todo => if b ∈ todo then [m] else []
  | _ => []

/-- With this delivery in hand, `a` found `b` not registered or its buffer full. -/
def Skipped [DecidableEq β] (a b : κ) (ls : List (Label κ β)) (i : Nat) : Prop :=
  ∃ past l rest s, ls = past ++ l :: rest ∧ (hub κ β).run past = some s ∧
    (delivered a past).length = i + 1 ∧
    (l = .rlockRead a ∧ b ∉ s.clients ∨ l = .forward a b ∧ Full (s.send b))

section

variable {a b : κ} {ls : List (Label κ β)} {l : Label κ β} {s t : State κ β}

theorem delivered_concat : delivered a (ls ++ [l]) = delivered a ls ++ deliveredBy a l := by
  simp [delivered]

variable [DecidableEq β]

/-- Every delivery before the one in hand was put into the channel or skipped. -/
structure Accounted (a b : κ) (ls : List (Label κ β)) (s : State κ β) (done : List Message) :
    Prop where
  split : delivered a ls = done ++ outstanding a b s
  sublist : (forwardedTo a b ls).Sublist done.zipIdx
  rest : ∀ x ∈ done.zipIdx, x ∈ forwardedTo a b ls ∨ Skipped a b ls x.2

theorem forwardedTo_concat (hrun : (hub κ β).run ls = some s) (hstep : step s l = some t) :
    forwardedTo a b (ls ++ [l]) = forwardedTo a b ls ++
      if reader l = some a then (gained b s t).map (·, (delivered a ls).length - 1) else [] :=
  log_concat hrun hstep

theorem forwardedTo_same (hrun : (hub κ β).run ls = some s) (hstep : step s l = some t)
    (hgained : reader l = some a → gained b s t = []) :
    forwardedTo a b (ls ++ [l]) = forwardedTo a b ls := by
  rw [forwardedTo_concat hrun hstep]
  split
  next hreader => simp [hgained hreader]
  next => simp

theorem Skipped.concat {i : Nat} (h : Skipped a b ls i) : Skipped a b (ls ++ [l]) i := by
  obtain ⟨past, k, rest, s, rfl, hrun⟩ := h
  exact ⟨past, k, rest ++ [l], s, by simp, hrun⟩

theorem Accounted.keep {done : List Message} (h : Accounted a b ls s done)
    (hrun : (hub κ β).run ls = some s) (hstep : step s l = some t)
    (hgained : reader l = some a → gained b s t = [])
    (hhand : outstanding a b s ++ deliveredBy a l = outstanding a b t) :
    Accounted a b (ls ++ [l]) t done := by
  have hlog : forwardedTo a b (ls ++ [l]) = forwardedTo a b ls :=
    forwardedTo_same hrun hstep hgained
  constructor
  · rw [delivered_concat, h.split, List.append_assoc, hhand]
  · rw [hlog]
    exact h.sublist
  · intro x hx
    rw [hlog]
    exact (h.rest x hx).imp_right .concat

theorem Accounted.frame {done : List Message} (h : Accounted a b ls s done)
    (hrun : (hub κ β).run ls = some s) (hstep : step s l = some t)
    (hdelivered : deliveredBy a l = []) (hgained : reader l = some a → gained b s t = [])
    (hhand : outstanding a b t = outstanding a b s) : Accounted a b (ls ++ [l]) t done :=
  h.keep hrun hstep hgained (by rw [hdelivered, hhand, List.append_nil])

theorem Accounted.deliver {done : List Message} (h : Accounted a b ls s done) {m : Message}
    (hrun : (hub κ β).run ls = some s) (hstep : step s l = some t)
    (hdelivered : deliveredBy a l = [m]) (hgained : gained b s t = [])
    (hfrom : outstanding a b s = []) (hto : outstanding a b t = [m]) :
    Accounted a b (ls ++ [l]) t done :=
  h.keep hrun hstep (fun _ => hgained) (by rw [hdelivered, hfrom, hto, List.nil_append])

theorem zipIdx_concat (done : List Message) (m : Message) :
    (done ++ [m]).zipIdx = done.zipIdx ++ [(m, done.length)] := by
  simp [List.zipIdx_append]

theorem Accounted.put {done : List Message} (h : Accounted a b ls s done) {m : Message}
    (hrun : (hub κ β).run ls = some s) (hstep : step s l = some t)
    (hdelivered : deliveredBy a l = []) (hreader : reader l = some a)
    (hgained : gained b s t = [m]) (hfrom : outstanding a b s = [m])
    (hto : outstanding a b t = []) : Accounted a b (ls ++ [l]) t (done ++ [m]) := by
  have hcount : (delivered a ls).length - 1 = done.length := by
    simp [h.split, hfrom]
  have hlog : forwardedTo a b (ls ++ [l]) = forwardedTo a b ls ++ [(m, done.length)] := by
    simp [forwardedTo_concat hrun hstep, hreader, hgained, hcount]
  constructor
  · rw [delivered_concat, hdelivered, h.split, hfrom, hto]
  · rw [hlog, zipIdx_concat]
    exact h.sublist.append_right _
  · intro x hx
    rw [hlog]
    rw [zipIdx_concat] at hx
    rcases List.mem_append.mp hx with hx | hx
    · exact (h.rest x hx).imp (List.mem_append_left _) .concat
    · exact .inl (List.mem_append_right _ hx)

theorem Accounted.skip {done : List Message} (h : Accounted a b ls s done) {m : Message}
    (hrun : (hub κ β).run ls = some s) (hstep : step s l = some t)
    (hdelivered : deliveredBy a l = []) (hgained : gained b s t = [])
    (hwhy : l = .rlockRead a ∧ b ∉ s.clients ∨ l = .forward a b ∧ Full (s.send b))
    (hfrom : outstanding a b s = [m]) (hto : outstanding a b t = []) :
    Accounted a b (ls ++ [l]) t (done ++ [m]) := by
  have hlog : forwardedTo a b (ls ++ [l]) = forwardedTo a b ls :=
    forwardedTo_same hrun hstep fun _ => hgained
  constructor
  · rw [delivered_concat, hdelivered, h.split, hfrom, hto]
  · rw [hlog, zipIdx_concat]
    exact h.sublist.trans (List.sublist_append_left _ _)
  · intro x hx
    rw [hlog]
    rw [zipIdx_concat] at hx
    rcases List.mem_append.mp hx with hx | hx
    · exact (h.rest x hx).imp_right .concat
    · rw [List.mem_singleton.mp hx]
      exact .inr ⟨ls, l, [], s, rfl, hrun, by simp [h.split, hfrom], hwhy⟩

omit [DecidableEq κ] [DecidableEq β] in
theorem gained_same (h : t.send b = s.send b) : gained b s t = [] := by
  simp [gained, h]

/-- Until a client is served it has no goroutines. -/
structure Started (a : κ) (s : State κ β) : Prop where
  readPump : s.readPump a ≠ .idle → s.serveWs a = .served
  writePump : s.writePump a ≠ .idle → s.serveWs a = .served

omit [DecidableEq β] in
theorem drop_frame (s : State κ β) (c : κ) : (s.drop c).readPump = s.readPump ∧
    (s.drop c).writePump = s.writePump ∧ (s.drop c).serveWs = s.serveWs ∧
    (s.drop c).wire = s.wire := by
  unfold State.drop
  split <;> exact ⟨rfl, rfl, rfl, rfl⟩

omit [DecidableEq κ] [DecidableEq β] in
theorem Started.frame (h : Started a s) (hread : t.readPump = s.readPump)
    (hwrite : t.writePump = s.writePump) (hserve : t.serveWs = s.serveWs) : Started a t := by
  constructor
  · rw [hread, hserve]
    exact h.readPump
  · rw [hwrite, hserve]
    exact h.writePump

omit [DecidableEq β] in
theorem Started.setReadPump (h : Started a s) {c : κ} {pc : ReadPumpPc κ}
    (hfrom : s.readPump c ≠ .idle) : Started a (s.setReadPump c pc) := by
  refine ⟨fun ha => ?_, h.writePump⟩
  by_cases hca : a = c
  · subst hca
    exact h.readPump hfrom
  · change Function.update s.readPump c pc a ≠ _ at ha
    rw [Function.update_of_ne hca] at ha
    exact h.readPump ha

omit [DecidableEq β] in
theorem Started.setWritePump (h : Started a s) {c : κ} {pc : WritePumpPc}
    (hfrom : s.writePump c ≠ .idle) : Started a (s.setWritePump c pc) := by
  refine ⟨h.readPump, fun ha => ?_⟩
  by_cases hca : a = c
  · subst hca
    exact h.writePump hfrom
  · change Function.update s.writePump c pc a ≠ _ at ha
    rw [Function.update_of_ne hca] at ha
    exact h.writePump ha

theorem Started.step (h : Started a s) (hstep : Step s l t) : Started a t := by
  cases hstep with
  | @upgrade c ok hserve =>
    by_cases hca : a = c
    · subst hca
      constructor
      · intro ha
        simp [h.readPump ha] at hserve
      · intro ha
        simp [h.writePump ha] at hserve
    · constructor
      · simpa [Function.update_of_ne hca] using h.readPump
      · simpa [Function.update_of_ne hca] using h.writePump
  | @register c =>
    by_cases hca : a = c
    · subst hca
      constructor <;> simp
    · constructor
      · simpa [Function.update_of_ne hca] using h.readPump
      · simpa [Function.update_of_ne hca] using h.writePump
  | @unregisterRead c _ hread | @readMessage c _ hread | @readError c hread
  | @rlockRead c _ hread | @forwardSent c _ _ _ _ hread | @forwardPast c _ _ _ hread
  | @forwarded c _ hread =>
    have hfrom : s.readPump c ≠ .idle := by
      simp [hread]
    have hset (pc : ReadPumpPc κ) := @Started.setReadPump _ _ _ _ _ h c pc hfrom
    exact (hset _).frame rfl rfl rfl
  | @unregisterWrite c _ hwrite | @received c _ _ hwrite | @receiveFailed c _ _ hwrite
  | @pingFailed c hwrite =>
    have hfrom : s.writePump c ≠ .idle := by
      simp [hwrite]
    have hset (pc : WritePumpPc) := @Started.setWritePump _ _ _ _ _ h c pc hfrom
    exact (hset _).frame rfl rfl rfl
  | @writeClose c wrote hwrite =>
    have hfrom : s.writePump c ≠ .idle := by
      simp [hwrite]
    have hset := @Started.setWritePump _ _ _ _ _ h c .finished hfrom
    cases wrote <;> exact hset.frame rfl rfl rfl
  | remove | evict | closeClient =>
    exact h.frame (drop_frame _ _).1 (drop_frame _ _).2.1 (drop_frame _ _).2.2.1
  | _ => exact h.frame rfl rfl rfl

theorem started_run (a : κ) (hrun : (hub κ β).run ls = some s) : Started a s :=
  @run_keeps _ _ (hub κ β) (Started a) ⟨fun h => absurd rfl h, fun h => absurd rfl h⟩
    (fun _ _ _ h hstep => h.step (step_cases hstep)) s ls hrun

theorem Accounted.other {done : List Message} {c : κ} {pc : ReadPumpPc κ}
    (h : Accounted a b ls s done) (hrun : (hub κ β).run ls = some s) (hstep : step s l = some t)
    (hreader : reader l = some c) (hca : c ≠ a)
    (hread : t.readPump = Function.update s.readPump c pc) : Accounted a b (ls ++ [l]) t done := by
  apply h.frame hrun hstep
  · cases l <;> simp_all [deliveredBy, reader]
  · intro ha
    rw [hreader] at ha
    exact absurd (Option.some.inj ha) hca
  · simp [outstanding, hread, Function.update_of_ne hca.symm]

theorem Accounted.elsewhere {done : List Message} (h : Accounted a b ls s done)
    (hrun : (hub κ β).run ls = some s) (hstep : step s l = some t) (hreader : reader l = none)
    (hread : t.readPump = s.readPump) : Accounted a b (ls ++ [l]) t done := by
  apply h.frame hrun hstep
  · cases l <;> simp_all [deliveredBy, reader]
  · simp [hreader]
  · simp [outstanding, hread]

theorem Accounted.step {done : List Message} (hab : a ≠ b) (hstarted : Started a s)
    (h : Accounted a b ls s done) (hrun : (hub κ β).run ls = some s)
    (hstep : Hub.step s l = some t) : ∃ done, Accounted a b (ls ++ [l]) t done := by
  have hcases := step_cases hstep
  cases hcases with
  | @register c _ hserve =>
    by_cases hca : c = a
    · subst hca
      have hidle : s.readPump c = .idle := by
        by_contra hne
        have hserved := hstarted.readPump hne
        rw [hserve] at hserved
        cases hserved
      exact ⟨done, h.frame hrun hstep rfl (by simp [reader]) (by simp [outstanding, hidle])⟩
    · refine ⟨done, h.frame hrun hstep rfl (by simp [reader]) ?_⟩
      simp [outstanding, Function.update_of_ne (Ne.symm hca)]
  | @unregisterRead c _ hread =>
    by_cases hca : c = a
    · subst hca
      refine ⟨done, h.frame hrun hstep rfl (by simp [reader]) ?_⟩
      simp [outstanding, State.setReadPump, hread]
    · refine ⟨done, h.frame hrun hstep rfl (by simp [reader]) ?_⟩
      simp [outstanding, State.setReadPump, State.setRun, Function.update_of_ne (Ne.symm hca)]
  | remove | evict | closeClient =>
    exact ⟨done, h.elsewhere hrun hstep rfl (drop_frame _ _).1⟩
  | @readMessage c m hread =>
    by_cases hca : c = a
    · subst hca
      refine ⟨done, h.deliver hrun hstep (if_pos rfl) (gained_same rfl) ?_ ?_⟩
      · simp [outstanding, hread]
      · simp [outstanding, State.setReadPump]
    · exact ⟨done, h.other hrun hstep rfl hca rfl⟩
  | @readError c hread =>
    by_cases hca : c = a
    · subst hca
      refine ⟨done, h.frame hrun hstep rfl (fun _ => gained_same rfl) ?_⟩
      simp [outstanding, State.setReadPump, hread]
    · exact ⟨done, h.other hrun hstep rfl hca rfl⟩
  | @rlockRead c m hread =>
    by_cases hca : c = a
    · subst hca
      by_cases hb : b ∈ s.clients
      · refine ⟨done, h.frame hrun hstep rfl (fun _ => gained_same rfl) ?_⟩
        simp [outstanding, State.setReadPump, hread, hb]
      · refine ⟨done ++ [m], h.skip hrun hstep rfl (gained_same rfl) (.inl ⟨rfl, hb⟩) ?_ ?_⟩
        · simp [outstanding, hread]
        · simp [outstanding, State.setReadPump, hb]
    · exact ⟨done, h.other hrun hstep rfl hca rfl⟩
  | @forwardSent c d m todo ch hread hd hoffer =>
    by_cases hca : c = a
    · subst hca
      obtain ⟨-, rfl⟩ := offer_sent hoffer
      by_cases hdb : d = b
      · subst hdb
        refine ⟨done ++ [m], h.put hrun hstep rfl rfl ?_ ?_ ?_⟩
        · simp [gained, State.setSend, State.setReadPump]
        · simp [outstanding, hread, hd]
        · simp [outstanding, State.setSend, State.setReadPump]
      · refine ⟨done, h.frame hrun hstep rfl (fun _ => gained_same ?_) ?_⟩
        · exact Function.update_of_ne (Ne.symm hdb) _ _
        · simp [outstanding, State.setSend, State.setReadPump, hread, Ne.symm hdb]
    · exact ⟨done, h.other hrun hstep rfl hca rfl⟩
  | @forwardPast c d m todo hread hd hpast =>
    by_cases hca : c = a
    · subst hca
      by_cases hdb : d = b
      · subst hdb
        have hfull := offer_full (hpast.resolve_left hab.symm)
        refine ⟨done ++ [m], h.skip hrun hstep rfl (gained_same rfl) (.inr ⟨rfl, hfull⟩) ?_ ?_⟩
        · simp [outstanding, hread, hd]
        · simp [outstanding, State.setReadPump]
      · refine ⟨done, h.frame hrun hstep rfl (fun _ => gained_same rfl) ?_⟩
        simp [outstanding, State.setReadPump, hread, Ne.symm hdb]
    · exact ⟨done, h.other hrun hstep rfl hca rfl⟩
  | forwardPanic =>
    exact ⟨done, h.frame hrun hstep rfl (fun _ => gained_same rfl) rfl⟩
  | @forwarded c m hread =>
    by_cases hca : c = a
    · subst hca
      refine ⟨done, h.frame hrun hstep rfl (fun _ => gained_same rfl) ?_⟩
      simp [outstanding, State.setReadPump, hread]
    · exact ⟨done, h.other hrun hstep rfl hca rfl⟩
  | @writeClose c wrote => cases wrote <;> exact ⟨done, h.elsewhere hrun hstep rfl rfl⟩
  | _ => exact ⟨done, h.elsewhere hrun hstep rfl rfl⟩

theorem accounted_run (hab : a ≠ b) (hrun : (hub κ β).run ls = some s) :
    ∃ done, Accounted a b ls s done := by
  refine @run_history _ _ (hub κ β) (fun ls s => ∃ done, Accounted a b ls s done) ?_ ?_ ls s hrun
  · exact ⟨[], rfl, List.Sublist.refl _, by simp⟩
  · rintro ls s l t hls ⟨done, h⟩ hstep
    exact h.step hab (started_run a hls) hls hstep

theorem gained_own (hstep : Step s l t) (hreader : reader l = some a) : gained a s t = [] := by
  cases hstep with
  | @forwardSent c d m todo ch _ _ _ hdc =>
    cases hreader
    exact gained_same (Function.update_of_ne hdc.symm _ _)
  | readMessage | readError | rlockRead | forwardPast | forwardPanic | forwarded =>
    exact gained_same rfl
  | _ => cases hreader

theorem forwardedTo_self (hrun : (hub κ β).run ls = some s) : forwardedTo a a ls = [] := by
  refine @run_history _ _ (hub κ β) (fun ls _ => forwardedTo a a ls = []) rfl ?_ ls s hrun
  intro ls s l t hls h hstep
  rw [forwardedTo_same hls hstep (gained_own (step_cases hstep))]
  exact h

/-- However the read pumps, the hub and the other goroutines take turns: what `a` puts into the
channel of another client is a subsequence of what its connection delivers, delivery by delivery;
it puts nothing into its own; and a delivery that is not put there is the one in hand, or found
the other client's buffer full or the other client not registered. -/
theorem fan_out (hrun : (hub κ β).run ls = some s) (hab : a ≠ b) :
    (forwardedTo a b ls).Sublist (delivered a ls).zipIdx ∧ forwardedTo a a ls = [] ∧
      ∀ m i, (m, i) ∈ (delivered a ls).zipIdx → (m, i) ∈ forwardedTo a b ls ∨
        Skipped a b ls i ∨ i + 1 = (delivered a ls).length ∧ outstanding a b s = [m] := by
  obtain ⟨done, h⟩ := accounted_run hab hrun
  have hdone : done.zipIdx.Sublist (delivered a ls).zipIdx := by
    rw [h.split, List.zipIdx_append]
    exact List.sublist_append_left _ _
  refine ⟨h.sublist.trans hdone, forwardedTo_self hrun, fun m i hm => ?_⟩
  rw [h.split, List.zipIdx_append] at hm
  rcases List.mem_append.mp hm with hm | hm
  · exact (h.rest _ hm).imp_right .inl
  · right
    right
    have hhand : outstanding a b s = [] ∨ ∃ m, outstanding a b s = [m] := by
      unfold outstanding
      split
      · simp
      · split <;> simp
      · simp
    obtain hnone | ⟨m', hone⟩ := hhand
    · rw [hnone] at hm
      simp at hm
    · rw [hone] at hm
      simp only [List.zipIdx_cons, List.zipIdx_nil, List.mem_singleton, Prod.mk.injEq] at hm
      obtain ⟨rfl, rfl⟩ := hm
      refine ⟨?_, hone⟩
      simp [h.split, hone]

end

/-- Two clients join and one of them sends two messages, the second when the other has left. -/
def leftBetween : List (Label Bool Unit) :=
  [.upgrade true true, .register true, .lock, .upgrade false true, .register false, .lock,
    .readMessage true [1], .rlockRead true, .forward true false, .forward true true,
    .forwarded true, .readError false, .unregisterRead false, .lock, .readMessage true [2],
    .rlockRead true, .forward true true, .forwarded true]

theorem fan_out_leftBetween : ∃ s, (hub Bool Unit).run leftBetween = some s ∧
    (forwardedTo true false leftBetween).Sublist (delivered true leftBetween).zipIdx ∧
    forwardedTo true true leftBetween = [] ∧
    ∀ m i, (m, i) ∈ (delivered true leftBetween).zipIdx →
      (m, i) ∈ forwardedTo true false leftBetween ∨ Skipped true false leftBetween i ∨
        i + 1 = (delivered true leftBetween).length ∧ outstanding true false s = [m] :=
  have hsome : ((hub Bool Unit).run leftBetween).isSome = true := by decide
  have hrun : (hub Bool Unit).run leftBetween = some _ := (Option.some_get hsome).symm
  ⟨_, hrun, fan_out hrun (by decide)⟩

example : forwardedTo true false leftBetween = [([1], 0)] := by decide

end LearnPg.Ws.Fanout
