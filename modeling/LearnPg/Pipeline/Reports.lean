import LearnPg.Api.ReportDecoding
import LearnPg.Basis.Merging
import Mathlib.Data.List.ReduceOption
import Mathlib.Data.Nat.Pairing

/-! The error reports of the pages: each page posts them in batches, a post gets to a handler once
at most, whole or cut, and the handlers record what they have read between one another. -/
namespace LearnPg.Pipeline.Reports

open Api Basis.Maps Basis.Merging Basis.Runs Frontend.ApiClient Frontend.ErrorReporter Telemetry

/-- The requests have the numbers of their pages and posts, as pairs. `taken` are the reports that
the pages take in, with the number of the post that each will be in, `recorded` what the handlers
record. -/
structure State where
  pages : Nat → Frontend.ErrorReporter.State
  server : Server
  taken : List (Nat × ErrorReport)
  recorded : List (Nat × RecordInput)

inductive Label where
  | page (w : Nat) (l : Frontend.ErrorReporter.Label)
  | arrive (w i : Nat) (cut : Option (Nat × String))
  | server (l : Api.Label)

structure Setting (J : Type) where
  json : JsonReader J
  client : ApiClientOptions
  activeConfig : ErrorReporterConfig
  fault : List UInt8 → String
  parseTime : String → Option Time
  sha256 : List UInt8 → List UInt8

section

variable {J : Type} (app : Setting J)

def Setting.browser : Browser J := ⟨app.json, app.client, stringify⟩

def Setting.decoding : Decoding := jsonDecoding app.fault app.parseTime

def recordedBy (server : Server) : Api.Label → List (Nat × RecordInput)
  | .record id _ _ _ =>
    match (server.batches id).map Batch.phase with
    | some (.measured input _ _) => [(id, input)]
    | _ => []
  | _ => []

/-- Posts get to the handler as they are sent, and nothing but the handler records. -/
def isOutside : Api.Label → Bool
  | .post _ _ | .operate (.record ..) => true
  | _ => false

def step (s : State) : Label → Option State
  | .page w l =>
    (Frontend.ErrorReporter.step app.browser app.activeConfig (s.pages w) l).map fun page =>
      let accepted := page.accepted.drop (s.pages w).accepted.length
      { s with
        pages := Function.update s.pages w page
        taken := s.taken ++ accepted.map (Nat.pair w (s.pages w).posts.length, ·) }
  | .arrive w i cut =>
    (s.pages w).posts[i]?.bind fun post =>
      (s.server.step app.decoding app.sha256
        (.post (Nat.pair w i) (postRequest post.batch cut))).map fun server => { s with server }
  | .server l =>
    if isOutside l then none
    else (s.server.step app.decoding app.sha256 l).map fun server =>
      { s with server, recorded := s.recorded ++ recordedBy s.server l }

def reports (store : Store) : Machine State Label where
  init := {
    pages := fun _ => (errorReporter app.browser app.activeConfig).init
    server := ⟨store, fun _ => none⟩
    taken := []
    recorded := [] }
  step := step app

end

/-! What a step of a page does to its reports. -/

def batches (page : Frontend.ErrorReporter.State) : List (List ErrorReport) :=
  page.posts.map Post.batch ++ [page.queue]

inductive Moves (page page' : Frontend.ErrorReporter.State) : Prop where
  | keeps (accepted : page'.accepted = page.accepted) (queue : page'.queue = page.queue)
      (posts : page'.posts.map Post.batch = page.posts.map Post.batch)
  | takes (report : ErrorReport) (accepted : page'.accepted = page.accepted ++ [report])
      (queue : page'.queue = page.queue ++ [report]) (posts : page'.posts = page.posts)
  | posts (accepted : page'.accepted = page.accepted) (queue : page'.queue = [])
      (posts : page'.posts.map Post.batch = page.posts.map Post.batch ++ [page.queue])

section

variable {J : Type} {browser : Browser J} {activeConfig : ErrorReporterConfig}
  {page page' page'' : Frontend.ErrorReporter.State}

theorem addBreadcrumb_keeps (activeConfig : ErrorReporterConfig) (breadcrumb : Breadcrumb)
    (now : Nat) :
    (addBreadcrumb activeConfig breadcrumb now page).accepted = page.accepted ∧
      (addBreadcrumb activeConfig breadcrumb now page).queue = page.queue ∧
      (addBreadcrumb activeConfig breadcrumb now page).posts = page.posts := by
  unfold addBreadcrumb
  split <;> exact ⟨rfl, rfl, rfl⟩

theorem addBreadcrumbs_keep (activeConfig : ErrorReporterConfig) (breadcrumbs : List Breadcrumb)
    (now : Nat) :
    let page' := breadcrumbs.foldl
      (fun page breadcrumb => addBreadcrumb activeConfig breadcrumb now page) page
    page'.accepted = page.accepted ∧ page'.queue = page.queue ∧ page'.posts = page.posts := by
  induction breadcrumbs generalizing page with
  | nil => exact ⟨rfl, rfl, rfl⟩
  | cons breadcrumb breadcrumbs ih =>
    obtain ⟨haccepted, hqueue, hposts⟩ :=
      @addBreadcrumb_keeps page activeConfig breadcrumb now
    obtain ⟨haccepted', hqueue', hposts'⟩ := @ih (addBreadcrumb activeConfig breadcrumb now page)
    exact ⟨haccepted'.trans haccepted, hqueue'.trans hqueue, hposts'.trans hposts⟩

theorem flush_moves (requestId : String) (now : Nat) (flushTimer : Bool) :
    Moves page (flush browser activeConfig requestId now { page with flushTimer }) := by
  unfold flush
  split
  next => exact .keeps rfl rfl rfl
  next =>
    obtain ⟨haccepted, hqueue, hposts⟩ := addBreadcrumb_keeps activeConfig _ _
    refine .posts haccepted hqueue ?_
    rw [hposts]
    simp

theorem batches_settled {posts : List Post} {i : Nat} {post : Post} (h : posts[i]? = some post) :
    (posts.set i { post with settled := true }).map Post.batch = posts.map Post.batch := by
  obtain ⟨hi, rfl⟩ := List.getElem?_eq_some_iff.mp h
  apply List.ext_getElem (by simp)
  intro j _ _
  by_cases hj : i = j
  · subst hj
    simp
  · simp [hj]

theorem page_moves {l : Frontend.ErrorReporter.Label}
    (hstep : Frontend.ErrorReporter.step browser activeConfig page l = some page') :
    Moves page page' := by
  cases l with
  | reportError input =>
    cases hstep
    unfold reportError
    split
    · exact .takes _ rfl rfl rfl
    · exact .keeps rfl rfl rfl
  | addBreadcrumb breadcrumb now =>
    cases hstep
    obtain ⟨haccepted, hqueue, hposts⟩ := addBreadcrumb_keeps activeConfig breadcrumb now
    exact .keeps haccepted hqueue (by rw [hposts])
  | timer requestId now =>
    obtain ⟨-, heq⟩ := Option.ite_none_right_eq_some.mp hstep
    cases heq
    exact flush_moves requestId now false
  | flushNow requestId now =>
    cases hstep
    exact flush_moves requestId now false
  | settle i answer now =>
    simp only [Frontend.ErrorReporter.step, settle] at hstep
    split at hstep
    next => cases hstep
    next post hpost =>
      obtain ⟨-, heq⟩ := Option.ite_none_left_eq_some.mp hstep
      cases heq
      obtain ⟨haccepted, hqueue, hposts⟩ := addBreadcrumbs_keep activeConfig _ _
      refine .keeps haccepted hqueue ?_
      rw [hposts]
      exact batches_settled hpost

theorem Moves.grows (h : Moves page page') : ∃ new, page'.accepted = page.accepted ++ new ∧
    ∀ i, (batches page')[i]?.getD [] = (batches page)[i]?.getD [] ++
      (if page.posts.length = i then new else []) := by
  cases h with
  | keeps accepted queue posts =>
    refine ⟨[], by simp [accepted], fun i => ?_⟩
    simp [batches, posts, queue]
  | takes report accepted queue posts =>
    refine ⟨[report], accepted, fun i => ?_⟩
    unfold batches
    rw [posts, queue, List.getElem?_append, List.getElem?_append, List.length_map]
    split
    next hlt => simp [Nat.ne_of_gt hlt]
    next hge =>
      split
      next heq => simp [heq]
      next hne =>
        have hgt : 0 < i - page.posts.length := by omega
        simp [hgt.ne']
  | posts accepted queue posts =>
    refine ⟨[], by simp [accepted], fun i => ?_⟩
    unfold batches
    rw [posts, queue, List.getElem?_append]
    split
    next => simp
    next hge =>
      rw [List.getElem?_eq_none (Nat.le_of_not_lt hge)]
      rw [List.getElem?_singleton]
      split <;> simp

theorem Moves.posted (h : Moves page page') {i : Nat} {batch : List ErrorReport}
    (hbatch : (page.posts.map Post.batch)[i]? = some batch) :
    (page'.posts.map Post.batch)[i]? = some batch := by
  cases h with
  | keeps accepted queue posts => rwa [posts]
  | takes report accepted queue posts => rwa [posts]
  | posts accepted queue posts =>
    rw [posts, List.getElem?_append_left (List.getElem?_eq_some_iff.mp hbatch).1]
    exact hbatch

end

/-! What is taken in is posted or in the queue. -/

/-- The reports of a page, and of each of its posts, among all that are taken in. -/
structure Taken (pages : Nat → Frontend.ErrorReporter.State) (taken : List (Nat × ErrorReport)) :
    Prop where
  accepted : ∀ w, (taken.filter (·.1.unpair.1 = w)).map Prod.snd = (pages w).accepted
  parts : ∀ w i, part (Nat.pair w i) taken = (batches (pages w))[i]?.getD []

section

variable {pages : Nat → Frontend.ErrorReporter.State} {taken : List (Nat × ErrorReport)} {w : Nat}
  {page : Frontend.ErrorReporter.State}

theorem part_pair {α : Type} (w i v j : Nat) (xs : List α) :
    part (Nat.pair v j) (xs.map (Nat.pair w i, ·)) = if w = v ∧ i = j then xs else [] := by
  unfold part
  by_cases h : w = v ∧ i = j
  · rw [if_pos h, h.1, h.2]
    simp [List.filter_map, Function.comp_def]
  · rw [if_neg h]
    simp [List.filter_map, Function.comp_def, Nat.pair_eq_pair, h]

theorem Taken.step (h : Taken pages taken) (hmoves : Moves (pages w) page) :
    Taken (Function.update pages w page) (taken ++
      (page.accepted.drop (pages w).accepted.length).map
        (Nat.pair w (pages w).posts.length, ·)) := by
  obtain ⟨new, hnew, hbatches⟩ := hmoves.grows
  rw [hnew, List.drop_left]
  constructor
  · intro v
    rw [List.filter_append, List.map_append, h.accepted v]
    by_cases hv : w = v
    · subst hv
      rw [Function.update_self, hnew]
      simp [List.filter_map, Function.comp_def]
    · rw [Function.update_of_ne (Ne.symm hv)]
      simp [List.filter_map, Function.comp_def, hv]
  · intro v j
    rw [part_append, h.parts v j, part_pair]
    by_cases hv : w = v
    · subst hv
      rw [Function.update_self, hbatches]
      simp
    · rw [Function.update_of_ne (Ne.symm hv)]
      simp [hv]

end

/-! What the handlers do. -/

def coming (b : Batch) : List RecordInput :=
  match b.phase with
  | .measured input _ _ => input :: b.rest.reduceOption
  | _ => b.rest.reduceOption

def IsRejected (b : Batch) : Prop := ∃ status message, b.phase = .rejected status message

/-- A handler goes on after it has recorded `inputs`. -/
structure Goes (b b' : Batch) (inputs : List RecordInput) : Prop where
  reports : b'.reports = b.reports
  coming : inputs ++ coming b' = coming b
  rejected : IsRejected b → IsRejected b'
  accepted : IsRejected b' → IsRejected b

section

variable {b b' : Batch} {size : Nat} {server server' : Server} {l : Api.Label} {d : Decoding}
  {sha256 : List UInt8 → List UInt8}

theorem drift_goes (change : Int) : Goes b (b.drift change) [] := by
  unfold Batch.drift
  refine ⟨rfl, ?_, ?_, ?_⟩
  · unfold coming
    cases b.phase <;> rfl
  · rintro ⟨status, message, h⟩
    exact ⟨status, message, by simp [h, Phase.drift]⟩
  · rintro ⟨status, message, h⟩
    cases hphase : b.phase <;> simp_all [Phase.drift, IsRejected]

theorem advance_goes (h : b.advance size = some b') : Goes b b' [] := by
  unfold Batch.advance at h
  split at h
  next hphase hrest =>
    cases h
    exact ⟨rfl, by simp [coming, hphase], by simp [IsRejected, hphase], by simp [IsRejected]⟩
  next rest hphase hrest =>
    cases h
    exact ⟨rfl, by simp [coming, hphase, hrest], by simp [IsRejected, hphase],
      by simp [IsRejected, hphase]⟩
  next input rest hphase hrest =>
    cases h
    exact ⟨rfl, by simp [coming, hphase, hrest], by simp [IsRejected, hphase], by simp [IsRejected]⟩
  next hphase =>
    split at h <;>
    · cases h
      exact ⟨rfl, by simp [coming, hphase], by simp [IsRejected, hphase], by simp [IsRejected]⟩
  next => cases h

theorem recorded_goes {input : RecordInput} {before : Nat} {others : Int} (absent : Bool)
    (own : Int) (h : b.phase = .measured input before others) :
    Goes b (b.recorded absent own before others) [input] :=
  ⟨rfl, by simp [coming, h, Batch.recorded], by simp [IsRejected, h],
    by simp [IsRejected, Batch.recorded]⟩

theorem Goes.refl (b : Batch) : Goes b b [] := ⟨rfl, rfl, fun h => h, fun h => h⟩

/-- The handlers of a server go on, each after it has recorded `inputs`, and there are no others. -/
structure GoOn (server server' : Server) (inputs : Nat → List RecordInput) : Prop where
  absent : ∀ id, server'.batches id = none → server.batches id = none ∧ inputs id = []
  present : ∀ id b', server'.batches id = some b' →
    ∃ b, server.batches id = some b ∧ Goes b b' (inputs id)

theorem change_goOn (server : Server) (store : Store) :
    GoOn server (server.change store) fun _ => [] := by
  constructor
  · intro id hid
    exact ⟨Option.map_eq_none_iff.mp hid, rfl⟩
  · intro id b' hb'
    obtain ⟨b, hb, rfl⟩ := Option.map_eq_some_iff.mp hb'
    exact ⟨b, hb, drift_goes _⟩

theorem put_other {i id : Nat} (h : id ≠ i) : (server.put i b).batches id = server.batches id :=
  Function.update_of_ne h _ _

theorem GoOn.put {i : Nat} {inputs : List RecordInput} (h : GoOn server server' fun _ => [])
    (hb : server.batches i = some b) (hgoes : Goes b b' inputs) :
    GoOn server (server'.put i b') (fun id => if id = i then inputs else []) := by
  constructor
  · intro id hid
    have hne : id ≠ i := by
      rintro rfl
      rw [put_batches] at hid
      cases hid
    rw [put_other hne] at hid
    rw [if_neg hne]
    exact h.absent id hid
  · intro id c hc
    by_cases hne : id = i
    · subst hne
      rw [put_batches] at hc
      cases hc
      exact ⟨b, hb, by rwa [if_pos rfl]⟩
    · rw [if_neg hne]
      rw [put_other hne] at hc
      exact h.present id c hc

theorem GoOn.refl (server : Server) : GoOn server server fun _ => [] :=
  ⟨fun _ hid => ⟨hid, rfl⟩, fun _ b hb => ⟨b, hb, Goes.refl b⟩⟩

theorem server_goOn (hl : isOutside l = false) (hstep : server.step d sha256 l = some server') :
    GoOn server server' fun id => part id (recordedBy server l) := by
  cases step_cases hstep with
  | post i r => cases hl
  | advance batch next => simpa [recordedBy] using (GoOn.refl server).put batch (advance_goes next)
  | @record i b input before others now now' σ store batch phase recorded =>
    have hrecorded : recordedBy server (.record i now now' σ) = [(i, input)] := by
      simp [recordedBy, batch, phase]
    have hpart : (fun id => part id (recordedBy server (.record i now now' σ))) =
        fun id => if id = i then [input] else [] := by
      funext id
      rw [hrecorded]
      split
      next heq => rw [heq, part_self]
      next hne => exact part_ne (Ne.symm hne)
    rw [hpart]
    exact (change_goOn server store).put batch (recorded_goes _ _ phase)
  | operate ran => exact change_goOn server _

end

/-! What the events of the store tell. -/

/-- What a store says at first of the reports under a hash. -/
def countUnder (store : Store) (h : String) : Nat :=
  match store.events.lookup h with
  | some (some e) => e.count.toNat
  | _ => 0

def eventTexts (e : Event) : List String := [e.message, e.url, e.stack, e.level, e.userAgent]

def inputTexts (input : RecordInput) : List String :=
  [input.message, input.url, input.stack, input.level, input.userAgent]

/-- The event counts no more reports than there are, and has its texts from one of them. -/
structure Told (sha256 : List UInt8 → List UInt8) (store : Store) (inputs : List RecordInput)
    (h : String) (e : Event) : Prop where
  count : e.count ≤ countUnder store h + inputs.countP (·.hash sha256 = h)
  source : (∃ e₀, store.events.lookup h = some (some e₀) ∧ eventTexts e = eventTexts e₀) ∨
    ∃ input ∈ inputs, input.hash sha256 = h ∧ eventTexts e = inputTexts input

def opInputs : Op → List RecordInput
  | .record input .. => [input]
  | _ => []

section

variable {sha256 : List UInt8 → List UInt8} {store s t : Store} {inputs inputs' : List RecordInput}
  {h : String} {e : Event} {op : Op}

theorem Told.mono (htold : Told sha256 store inputs h e) (hsub : inputs.Subperm inputs') :
    Told sha256 store inputs' h e := by
  obtain ⟨hcount, hsource⟩ := htold
  have hle := hsub.countP_le (·.hash sha256 = h)
  refine ⟨by omega, hsource.imp_right ?_⟩
  rintro ⟨input, hinput, hhash, htexts⟩
  exact ⟨input, hsub.subset hinput, hhash, htexts⟩

theorem told_op (hk : Keyed s.events) (hop : op.run sha256 s = some t)
    (htold : ∀ h e, s.events.lookup h = some (some e) → Told sha256 store inputs h e)
    (hplain : ∀ input ∈ opInputs op, input.level = "" ∧ input.userAgent = "") :
    Keyed t.events ∧ ∀ h e, t.events.lookup h = some (some e) →
      Told sha256 store (inputs ++ opInputs op) h e := by
  obtain ⟨t', ht', hsteps⟩ := op_steps sha256 hk op
  cases hop.symm.trans ht'
  have hone {h : String} {input : RecordInput} (hash : input.hash sha256 = h) :
      (inputs ++ [input]).countP (·.hash sha256 = h) = inputs.countP (·.hash sha256 = h) + 1 := by
    simp [hash]
  refine ⟨hsteps.keyed, fun h e he => ?_⟩
  cases hsteps.comes h e he with
  | kept old other => exact (htold h e old).mono (List.sublist_append_left _ _).subperm
  | merged input now now' σ e₀ call hash old new =>
    subst call new
    obtain ⟨hlevel, hagent⟩ := hplain input List.mem_cons_self
    obtain ⟨hcount, hsource⟩ := htold h e₀ old
    have hmerged : (e₀.merge input now).count = e₀.count + 1 := rfl
    have htexts : eventTexts (e₀.merge input now) = eventTexts e₀ := by
      simp [eventTexts, Event.merge, orDefault, hlevel, hagent]
    refine ⟨?_, ?_⟩
    · rw [hmerged, opInputs, hone hash]
      omega
    · rw [htexts]
      refine hsource.imp_right ?_
      rintro ⟨input', hinput', hhash, htexts'⟩
      exact ⟨input', List.mem_append_left _ hinput', hhash, htexts'⟩
  | inserted input now now' σ call hash absent new =>
    subst call new
    have hnew : (newEvent h input now now').count = 1 := rfl
    refine ⟨?_, .inr ⟨input, by simp [opInputs], hash, rfl⟩⟩
    rw [hnew, opInputs, hone hash]
    omega

end

/-! The invariant. -/

/-- A request is of a post that is there. Its handler has read the whole batch or has rejected it,
and records what it has read in its order. -/
structure Handled (page : Frontend.ErrorReporter.State) (recorded : List (Nat × RecordInput))
    (w i : Nat) (b : Batch) : Prop where
  order : part (Nat.pair w i) recorded ++ coming b = b.reports.reduceOption
  batch : ∃ batch, (page.posts.map Post.batch)[i]? = some batch ∧
    (b.reports = batch.map (fun report => some (reportInput report)) ∨
      b.reports = [] ∧ IsRejected b)

structure Inv (sha256 : List UInt8 → List UInt8) (store : Store) (s : State) : Prop where
  taken : Taken s.pages s.taken
  handled : ∀ w i b, s.server.batches (Nat.pair w i) = some b →
    Handled (s.pages w) s.recorded w i b
  counted : s.server.Every fun _ b => b.Counted
  fresh : ∀ id, s.server.batches id = none → part id s.recorded = []
  keyed : Keyed s.server.store.events
  told : ∀ h e, s.server.store.events.lookup h = some (some e) →
    Told sha256 store (s.recorded.map Prod.snd) h e

section

variable {J : Type} {app : Setting J} {store : Store} {s t : State} {fault : List UInt8 → String}
  {parseTime : String → Option Time}

theorem start_post (batch : List ErrorReport) (cut : Option (Nat × String)) :
    let b := Batch.start (jsonDecoding fault parseTime) (postRequest batch cut)
    coming b = b.reports.reduceOption ∧
      (b.reports = batch.map (fun report => some (reportInput report)) ∨
        b.reports = [] ∧ IsRejected b) := by
  unfold Batch.start
  by_cases hfits : Fits batch cut
  · rw [reports_of_whole hfits.2, if_pos hfits.1]
    exact ⟨rfl, .inl rfl⟩
  · obtain ⟨message, hmessage⟩ := @reports_of_unfit fault parseTime batch cut hfits
    rw [hmessage]
    exact ⟨rfl, .inr ⟨rfl, 400, message, rfl⟩⟩

theorem Inv.page {w : Nat} {page : Frontend.ErrorReporter.State} (h : Inv app.sha256 store s)
    (hmoves : Moves (s.pages w) page) :
    Inv app.sha256 store { s with
      pages := Function.update s.pages w page
      taken := s.taken ++ (page.accepted.drop (s.pages w).accepted.length).map
        (Nat.pair w (s.pages w).posts.length, ·) } := by
  refine ⟨h.taken.step hmoves, fun v i b hb => ?_, h.counted, h.fresh, h.keyed, h.told⟩
  obtain ⟨horder, batch, hbatch, hread⟩ := h.handled v i b hb
  refine ⟨horder, batch, ?_, hread⟩
  dsimp only
  by_cases hv : v = w
  · subst hv
    rw [Function.update_self]
    exact hmoves.posted hbatch
  · rwa [Function.update_of_ne hv]

theorem Inv.arrive {w i : Nat} {post : Post} {cut : Option (Nat × String)} {server : Server}
    (h : Inv app.sha256 store s) (hpost : (s.pages w).posts[i]? = some post)
    (hserver : s.server.step app.decoding app.sha256
      (.post (Nat.pair w i) (postRequest post.batch cut)) = some server) :
    Inv app.sha256 store { s with server } := by
  have hcounted := step_counted h.counted hserver
  simp only [Server.step] at hserver
  obtain ⟨hnone, heq⟩ := Option.ite_none_left_eq_some.mp hserver
  cases heq
  rw [Option.not_isSome_iff_eq_none] at hnone
  refine ⟨h.taken, fun v j b hb => ?_, hcounted, fun id hid => ?_, h.keyed, h.told⟩
  · by_cases hid : Nat.pair v j = Nat.pair w i
    · obtain ⟨rfl, rfl⟩ := Nat.pair_eq_pair.mp hid
      rw [put_batches] at hb
      cases hb
      obtain ⟨hcoming, hread⟩ := @start_post app.fault app.parseTime post.batch cut
      refine ⟨?_, post.batch, by simp [hpost], hread⟩
      rw [h.fresh _ hnone, List.nil_append]
      exact hcoming
    · rw [put_other hid] at hb
      exact h.handled v j b hb
  · by_cases heq : id = Nat.pair w i
    · subst heq
      exact h.fresh _ hnone
    · rw [put_other heq] at hid
      exact h.fresh id hid

theorem reduceOption_some {α β : Type} (f : α → β) (xs : List α) :
    (xs.map fun x => some (f x)).reduceOption = xs.map f := by
  simp [List.reduceOption, List.filterMap_map]

theorem Inv.input {id before : Nat} {b : Batch} {input : RecordInput} {others : Int}
    (h : Inv app.sha256 store s) (hb : s.server.batches id = some b)
    (hphase : b.phase = .measured input before others) :
    ∃ report, input = reportInput report := by
  rw [← Nat.pair_unpair id] at hb
  obtain ⟨horder, batch, hbatch, hread⟩ := h.handled _ _ b hb
  have hmem : input ∈ b.reports.reduceOption := by
    rw [← horder]
    simp [coming, hphase]
  rw [List.reduceOption_mem_iff] at hmem
  rcases hread with hreports | ⟨hnone, -⟩
  · rw [hreports] at hmem
    obtain ⟨report, -, heq⟩ := List.mem_map.mp hmem
    exact ⟨report, (Option.some.inj heq).symm⟩
  · rw [hnone] at hmem
    cases hmem

theorem told_server {l : Api.Label} {server : Server} (h : Inv app.sha256 store s)
    (hl : isOutside l = false)
    (hserver : s.server.step app.decoding app.sha256 l = some server) :
    Keyed server.store.events ∧ ∀ h e, server.store.events.lookup h = some (some e) →
      Told app.sha256 store ((s.recorded ++ recordedBy s.server l).map Prod.snd) h e := by
  cases step_cases hserver with
  | post i r => cases hl
  | @advance i b b' batch next =>
    have hnone : recordedBy s.server (.advance i) = [] := rfl
    rw [hnone, List.append_nil]
    exact ⟨h.keyed, h.told⟩
  | @record i b input before others now now' σ after batch phase recorded =>
    have hinputs : (s.recorded ++ recordedBy s.server (.record i now now' σ)).map Prod.snd =
        s.recorded.map Prod.snd ++ opInputs (.record input now now' σ) := by
      simp [recordedBy, batch, phase, opInputs]
    rw [hinputs]
    have hop : (Op.record input now now' σ).run app.sha256 s.server.store = some after := recorded
    refine told_op h.keyed hop h.told ?_
    intro input' hinput'
    obtain ⟨report, rfl⟩ := h.input batch phase
    cases List.mem_singleton.mp hinput'
    exact ⟨rfl, rfl⟩
  | @operate op after ran =>
    have hnone : recordedBy s.server (.operate op) = [] := rfl
    rw [hnone, List.append_nil]
    have hinputs : opInputs op = [] := by
      cases op with
      | record input now now' σ => cases hl
      | purgeBefore cutoff => rfl
      | maintain now σ => rfl
    have hall := told_op h.keyed ran h.told (by simp [hinputs])
    rwa [hinputs, List.append_nil] at hall

theorem Inv.server {l : Api.Label} {server : Server} (h : Inv app.sha256 store s)
    (hl : isOutside l = false)
    (hserver : s.server.step app.decoding app.sha256 l = some server) :
    Inv app.sha256 store { s with server, recorded := s.recorded ++ recordedBy s.server l } := by
  have hgoOn := server_goOn hl hserver
  obtain ⟨hkeyed, htold⟩ := told_server h hl hserver
  refine ⟨h.taken, fun v j b' hb' => ?_, step_counted h.counted hserver, fun id hid => ?_,
    hkeyed, htold⟩
  · obtain ⟨b, hb, hgoes⟩ := hgoOn.present _ b' hb'
    obtain ⟨horder, batch, hbatch, hread⟩ := h.handled v j b hb
    refine ⟨?_, batch, hbatch, ?_⟩
    · dsimp only
      rw [part_append, List.append_assoc, hgoes.coming, horder, hgoes.reports]
    · rw [hgoes.reports]
      exact hread.imp_right fun ⟨hnone, hrejected⟩ => ⟨hnone, hgoes.rejected hrejected⟩
  · dsimp only at hid ⊢
    obtain ⟨hnone, hnothing⟩ := hgoOn.absent id hid
    rw [part_append, h.fresh id hnone, hnothing, List.append_nil]

theorem Inv.step {l : Label} (h : Inv app.sha256 store s) (hstep : step app s l = some t) :
    Inv app.sha256 store t := by
  cases l with
  | page w l =>
    obtain ⟨page, hpage, rfl⟩ := Option.map_eq_some_iff.mp hstep
    exact h.page (page_moves hpage)
  | arrive w i cut =>
    obtain ⟨post, hpost, hposted⟩ := Option.bind_eq_some_iff.mp hstep
    obtain ⟨server, hserver, rfl⟩ := Option.map_eq_some_iff.mp hposted
    exact h.arrive hpost hserver
  | server l =>
    obtain ⟨hl, hgoes⟩ := Option.ite_none_left_eq_some.mp hstep
    obtain ⟨server, hserver, rfl⟩ := Option.map_eq_some_iff.mp hgoes
    exact h.server (Bool.eq_false_iff.mpr hl) hserver

theorem inv_run {labels : List Label} (hk : Keyed store.events)
    (hrun : (reports app store).run labels = some s) : Inv app.sha256 store s := by
  have hinit : Inv app.sha256 store (reports app store).init := by
    refine ⟨⟨fun _ => rfl, fun w i => ?_⟩, nofun, nofun, fun _ _ => rfl, hk, fun h e he => ?_⟩
    · cases i <;> rfl
    · have hcount : countUnder store h = e.count.toNat := by
        have hold : store.events.lookup h = some (some e) := he
        simp [countUnder, hold]
      refine ⟨?_, .inl ⟨e, he, rfl⟩⟩
      rw [hcount]
      omega
  exact run_keeps hinit (fun _ _ _ h hstep => h.step hstep) hrun

theorem Inv.part_sublist (h : Inv app.sha256 store s) (id : Nat) :
    (part id s.recorded).Sublist (part id (s.taken.map fun x => (x.1, reportInput x.2))) := by
  rw [part_map, ← Nat.pair_unpair id]
  cases hb : s.server.batches (Nat.pair id.unpair.1 id.unpair.2) with
  | none =>
    rw [h.fresh _ hb]
    exact List.nil_sublist _
  | some b =>
    obtain ⟨horder, batch, hbatch, hread⟩ := h.handled _ _ b hb
    have hposted : part (Nat.pair id.unpair.1 id.unpair.2) s.taken = batch := by
      rw [h.taken.parts, batches,
        List.getElem?_append_left (List.getElem?_eq_some_iff.mp hbatch).1, hbatch, Option.getD_some]
    have hreports : b.reports.reduceOption.Sublist (batch.map reportInput) := by
      rcases hread with hreports | ⟨hnone, -⟩
      · rw [hreports, reduceOption_some]
      · rw [hnone]
        exact List.nil_sublist _
    rw [hposted]
    exact (horder ▸ List.sublist_append_left _ _).trans hreports

/-- Every report that a page takes in is recorded once at most, and all those of a batch that is
accepted, in its order; the events count no more reports than these and have their texts from
them. -/
theorem reports_told {labels : List Label} (hk : Keyed store.events)
    (hrun : (reports app store).run labels = some s) :
    (∀ w, (s.taken.filter (·.1.unpair.1 = w)).map Prod.snd = (s.pages w).accepted) ∧
      (s.recorded.map Prod.snd).Subperm (s.taken.map fun x => reportInput x.2) ∧
      (∀ w i b, s.server.batches (Nat.pair w i) = some b → b.phase = .accepted →
        ∃ batch, ((s.pages w).posts.map Post.batch)[i]? = some batch ∧
          part (Nat.pair w i) s.recorded = batch.map reportInput) ∧
      ∀ h e, s.server.store.events.lookup h = some (some e) →
        Told app.sha256 store (s.taken.map fun x => reportInput x.2) h e := by
  have hinv := inv_run hk hrun
  have hsubperm : (s.recorded.map Prod.snd).Subperm (s.taken.map fun x => reportInput x.2) := by
    have hmerges : Merges (fun _ => []) (part · (s.taken.map fun x => (x.1, reportInput x.2)))
        (s.recorded.map Prod.snd) :=
      ⟨s.recorded, rfl, fun id => by
        rw [List.append_nil]
        exact hinv.part_sublist id⟩
    have hsub := hmerges.subperm
    rwa [List.map_map] at hsub
  refine ⟨hinv.taken.accepted, hsubperm, fun w i b hb hphase => ?_,
    fun h e he => (hinv.told h e he).mono hsubperm⟩
  obtain ⟨horder, batch, hbatch, hread⟩ := hinv.handled w i b hb
  have hrest : b.rest = [] := (hinv.counted _ b hb).2 hphase
  have hdone : coming b = [] := by
    simp [coming, hphase, hrest]
  rw [hdone, List.append_nil] at horder
  rcases hread with hreports | ⟨-, status, message, hrejected⟩
  · refine ⟨batch, hbatch, ?_⟩
    rw [horder, hreports, reduceOption_some]
  · rw [hphase] at hrejected
    cases hrejected

end

def plainApp : Setting Unit where
  json := sameOrigin.json
  client := sameOrigin.client
  activeConfig := configureErrorReporter none none none
  fault := fun _ => "no JSON"
  parseTime := fun _ => none
  sha256 := boomDigest

/-- A page takes in an error, from its error boundary, and posts it. -/
def posting : List Label :=
  [.page 0 (.reportError thrown), .page 0 (.flushNow "req" 10)]
where
  thrown : Input :=
    { clickFailed 0 with source := some .boundary, context := clickReport.context }

noncomputable def recording : List Label :=
  [.arrive 0 0 none, .server (.advance 0), .server (.record 0 6 6 (anySorting _)),
    .server (.advance 0), .server (.advance 0)]

theorem reports_told_clicked : ∃ s,
    (reports plainApp memoryOnly).run (posting ++ recording) = some s ∧
      s.recorded = [(0, reportInput clickReport)] ∧
      (s.recorded.map Prod.snd).Subperm (s.taken.map fun x => reportInput x.2) := by
  have hk : Keyed memoryOnly.events := by
    intro h p hp
    cases hp
  have hstart : Batch.start plainApp.decoding (postRequest [clickReport] none) =
      ⟨[some (reportInput clickReport)], [some (reportInput clickReport)], 0, 0, .next, 0, 0⟩ := by
    unfold Batch.start Setting.decoding
    rw [reports_of_whole fits_click.2, if_pos fits_click.1]
    rfl
  obtain ⟨after, hafter, -⟩ :=
    @record_steps boomDigest memoryOnly hk (reportInput clickReport) 6 6 (anySorting _)
  obtain ⟨m, hm, hpost, hserver, hnone⟩ : ∃ m,
      (reports plainApp memoryOnly).runFrom (reports plainApp memoryOnly).init posting = some m ∧
        (m.pages 0).posts[0]? = some ⟨[clickReport], "req", false⟩ ∧
        m.server = ⟨memoryOnly, fun _ => none⟩ ∧ m.recorded = [] := ⟨_, rfl, rfl, rfl, rfl⟩
  have hends : ∃ s, (reports plainApp memoryOnly).runFrom m recording = some s ∧
      s.recorded = [(0, reportInput clickReport)] := by
    have hpair : Nat.pair 0 0 = 0 := rfl
    have hsha : plainApp.sha256 = boomDigest := rfl
    have hempty : len memoryOnly.events = 0 := rfl
    have habsent : (reportInput clickReport).hash boomDigest ∉ memoryOnly.events := by decide
    have hlen : len after.events = 1 := by
      have hgrowth := record_growth hk hafter
      rw [recordGrowth, if_neg habsent, if_pos (by decide), hempty] at hgrowth
      omega
    simp [Machine.runFrom, recording, reports, step, hpost, hserver, hnone, hpair, hsha, hstart,
      hafter, hempty, hlen, Server.step, isOutside, Batch.advance, Batch.recorded, recordedBy]
  obtain ⟨s, hlast, hrecorded⟩ := hends
  have hrun : (reports plainApp memoryOnly).run (posting ++ recording) = some s := by
    unfold Machine.run
    rw [runFrom_append, hm, Option.bind_some, hlast]
  exact ⟨s, hrun, hrecorded, (reports_told hk hrun).2.1⟩

end LearnPg.Pipeline.Reports
